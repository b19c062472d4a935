import Camerasp.Camera.Commit
import Camerasp.Camera.Frame
import Camerasp.Camera.Safety

/-!
# After a `takePicture` that failed

An initialised object's `takePicture` returns `-1` where its output port is enabled already, where
`mmal_port_enable` fails, and where `MMAL_PARAMETER_CAPTURE` is refused. In the last case the port
has been enabled and has the pool's buffers, and stays so: every later `takePicture` finds it
enabled. `recovers_iff`: the port is idle again, and a later call can succeed, exactly when that
does not happen.
-/

namespace Camerasp.Camera

open Camerasp.Lib (Machine)

/-- The encoder's output port is disabled and holds no buffer. -/
def Idle (st : State) : Prop :=
  ∀ q, st.ptr.encoderOutputPort = some q →
    (st.dev.port q).isEnabled = false ∧ (st.dev.port q).sent = 0

/-- Every MMAL call of an initialised object's `takePicture` succeeds, and the encoder ends the
frame with a buffer that fits. -/
structure AllSucceed (o : Outcomes) (length : UInt32) : Prop where
  parameter : ∀ q a, o.parameter q a
  commitEncoding : o.commitEncoding
  enableOutput : o.enableOutput
  send : ∀ n, o.send n
  disableOutput : o.disableOutput
  ends : ∃ pre b, pre ++ [b] <+: o.delivered ∧ b.ends ∧ b.fits length (filled length pre)

/-- After a `takePicture` that returned `-1` the port is idle, and the next one whose MMAL calls
all succeed returns `0`. -/
def Recovers (o : Outcomes) (data : Nat → UInt8) (length : UInt32) (st : State) : Prop :=
  ∀ x st', takePictureOf o data length st = .ok ((-1, x), st') →
    Idle st' ∧ ∀ o' data' length', AllSucceed o' length' →
      ∃ x' st'', takePictureOf o' data' length' st' = .ok ((0, x'), st'')

/-- Where the MMAL calls end badly after the port has been enabled. -/
def Outcomes.refusesCapture (o : Outcomes) : Bool :=
  o.enableOutput && !o.parameter (.output 2) .capture

variable {o : Outcomes} {st st₁ : State}

/-! ## The port through the calls -/

theorem commitDevice_port (o : Outcomes) (c : Nat) (st : State) :
    (commitDevice o c st).port = st.dev.port := by
  unfold commitDevice commitEncoding
  split
  · cases st.ptr.encoderOutputPort <;> rfl
  · rfl

@[simp] theorem sendBuffers_isEnabled (send : Nat → Bool) (n : Nat) (p : Port) :
    (sendBuffers send n p).isEnabled = p.isEnabled := by
  induction n with
  | zero => rfl
  | succ n ih => exact ih

@[simp] theorem sendBuffers_userdata (send : Nat → Bool) (n : Nat) (p : Port) :
    (sendBuffers send n p).userdata = p.userdata := by
  induction n with
  | zero => rfl
  | succ n ih => exact ih

/-- An object that has just been initialised has an idle port. -/
theorem idle_initialized : Idle (initialized o st) := by
  intro q hq
  have hq' : (⟨(cameraMade o st).res.next, .output 0⟩ : PortId) = q := by
    simpa [initialized, encoderMade] using hq
  subst hq'
  simp [initialized, encoderMade, encoderDevice, outputDevice, withEncoder, Device.setPort,
    Device.commitFormat, Device.reset, Port.fresh]

/-- An `initialize` that succeeds leaves an initialised object behind, with an idle port. -/
theorem initializeCam_idle (hidle : st.isInitialized → Idle st)
    (h : initializeCam o st = .ok (0, st₁)) : st₁.isInitialized ∧ Idle st₁ := by
  by_cases hi : st.isInitialized
  · cases h.symm.trans (initializeCam_again hi)
    exact ⟨hi, hidle hi⟩
  · rcases initializeCam_inv hi h with ⟨-, -, rfl⟩ | ⟨hr, -⟩
    · exact ⟨rfl, idle_initialized⟩
    · exact absurd hr (by decide)

/-! ## Every run leaves a ready object -/

theorem Ready.initializeCam {r : Int32} (hr : Ready st) (h : initializeCam o st = .ok (r, st₁)) :
    Ready st₁ := by
  by_cases hi : st.isInitialized
  · cases h.symm.trans (initializeCam_again hi)
    exact hr
  · rcases initializeCam_inv hi h with ⟨-, -, rfl⟩ | ⟨-, hf⟩
    · exact fun _ => ⟨_, _, _, _, wired_initialized⟩
    · exact fun hi' => absurd hi' hf.isInitialized

theorem stopCapture_isInitialized (h : stopCapture o st = .ok st₁) :
    st₁.isInitialized = st.isInitialized := by
  unfold stopCapture at h
  cases hq : portOf st.ptr.encoderOutputPort st.res with
  | error x => simp [hq, bind, Except.bind] at h
  | ok q =>
    simp only [hq, bind, Except.bind] at h
    split at h <;> cases h <;> rfl

theorem endCapture_isInitialized {x : Int32 × (Nat → UInt8) × UInt32}
    (h : endCapture o st = .ok (x, st₁)) : st₁.isInitialized = st.isInitialized := by
  unfold endCapture at h
  cases hq : portOf st.ptr.encoderOutputPort st.res with
  | error y => simp [hq, bind, Except.bind] at h
  | ok q =>
    simp only [hq, bind, Except.bind] at h
    split at h
    · cases h
    split at h
    · cases h
    split at h
    · cases h
    · rename_i st' hstop
      cases h
      have hi := stopCapture_isInitialized hstop
      exact hi

theorem Ready.takePictureOf {x : Int32 × (Nat → UInt8) × UInt32} {data : Nat → UInt8}
    {length : UInt32} (hr : Ready st) (h : takePictureOf o data length st = .ok (x, st₁)) :
    Ready st₁ := by
  obtain ⟨r', st', r₂, st₂, h', h₂, hend⟩ := takePictureOf_inv h
  by_cases hi : st'.isInitialized
  · obtain ⟨c, e, p, k, hw⟩ := hr.initializeCam h' hi
    rcases takePictureOf_wired (o := o) data length h' hw with hwait | ⟨y, d, ht⟩
    · cases h.symm.trans hwait
    · cases h.symm.trans ht
      exact fun _ => ⟨c, e, p, k, hw.congr rfl rfl⟩
  · -- The object is not initialised, and what follows does not change that.
    have h₂i := (beginCapture_inv h₂).isInitialized
    have h₁i : st₁.isInitialized = st₂.isInitialized := by
      split at hend
      · rw [hend]
      · exact endCapture_isInitialized hend
    exact fun hi₁ => absurd (h₂i ▸ h₁i ▸ hi₁) hi

theorem exec_release_inv {v : Int32} (h : machine.exec st (.release o) = .ok (st₁, v)) :
    release o st = .ok st₁ := by
  cases hrel : release o st with
  | error x => simp [machine, hrel, bind, Except.bind] at h
  | ok st' => cases h.symm.trans (exec_release hrel); rfl

/-- **After every run an initialised object has its pointers.** -/
theorem ready_of_run {calls : List Call} (h : machine.run State.init calls = .ok st) :
    Ready st := by
  refine Machine.run_invariant (I := Ready) ?_ h nofun
  intro st call st' v hr he
  cases call with
  | set s =>
    cases he
    intro hi
    obtain ⟨c, e, p, k, hw⟩ := hr hi
    exact ⟨c, e, p, k, hw.congr rfl rfl⟩
  | initializeCam o => exact hr.initializeCam (exec_initializeCam_inv he)
  | openCam o =>
    obtain ⟨r, h⟩ := exec_openCam_inv he
    exact hr.initializeCam h
  | takePicture o data length =>
    obtain ⟨x, h⟩ := exec_takePicture_inv he
    exact hr.takePictureOf h
  | release o =>
    have h := exec_release_inv he
    by_cases hi : st.isInitialized
    · obtain ⟨c, e, p, k, hw⟩ := hr hi
      obtain ⟨d, h'⟩ := hw.release_eq (o := o) hi
      cases h.symm.trans h'
      exact fun hi' => Bool.noConfusion hi'
    · cases h.symm.trans (release_again hi)
      exact hr

namespace Wired

variable {c e p k : Nat} (h : Wired c e p k st) (data : Nat → UInt8) (length : UInt32)

include h

/-- **What `takePicture` does up to its wait**, with a port that is disabled. -/
theorem beginCapture_disabled (hd : (st.dev.port ⟨e, .output 0⟩).isEnabled = false) :
    ∃ d, beginCapture o data length st = .ok (
        if o.enableOutput ∧ o.parameter (.output 2) .capture then 0 else -1,
        { st with changedSettings := false, dev := d }) ∧
      (d.port ⟨e, .output 0⟩).userdata = some (.start data length) ∧
      (d.port ⟨e, .output 0⟩).isEnabled = o.enableOutput ∧
      (o.enableOutput = false →
        (d.port ⟨e, .output 0⟩).sent = (st.dev.port ⟨e, .output 0⟩).sent) := by
  let st₁ : State := { st with
    dev := st.dev.setPort ⟨e, .output 0⟩
      { st.dev.port ⟨e, .output 0⟩ with userdata := some (.start data length) } }
  have h₁ : Wired c e p k st₁ := h.congr rfl rfl
  have hport : (commitDevice o c st₁).port ⟨e, .output 0⟩ =
      { st.dev.port ⟨e, .output 0⟩ with userdata := some (.start data length) } := by
    rw [commitDevice_port]
    exact Function.update_self _ _ _
  have hbegin : beginCapture o data length st = startCapture o st₁ := by
    unfold beginCapture
    rw [h.portOf_output]
    rfl
  rw [hbegin]
  unfold startCapture
  rw [commitParameters_eq h₁.camera h₁.cameraLive h₁.staleFree]
  simp only [bind, Except.bind, h₁.portOf_output, hport, hd, Bool.false_eq_true, if_false]
  cases hen : o.enableOutput with
  | false =>
    refine ⟨commitDevice o c st₁, by simp [st₁], ?_⟩
    rw [hport]
    exact ⟨rfl, hd, fun _ => rfl⟩
  | true =>
    have hp : Camera.pool st₁.ptr.encoderPool st₁.res = .ok p := by
      rw [h₁.pool]
      exact if_pos (List.mem_map_of_mem h₁.poolLive)
    have hs : portOf st₁.ptr.cameraStillPort st₁.res = .ok ⟨c, .output 2⟩ := by
      rw [h₁.still]
      exact portOf_some h₁.cameraLive
    simp only [hp, hs, Bool.not_true, Bool.false_eq_true, if_false, true_and]
    refine ⟨_, rfl, ?_, ?_, nofun⟩
    · simp [Device.setPort]
    · simp [Device.setPort]

/-- The wait ends where a buffer with an end flag has passed the size check. -/
theorem endCapture_posted
    (hu : (st.dev.port ⟨e, .output 0⟩).userdata = some (.start data length))
    (hends : ∃ pre b, pre ++ [b] <+: o.delivered ∧ b.ends ∧ b.fits length (filled length pre)) :
    ∃ x st', endCapture o st = .ok ((0, x), st') := by
  have hm := (posted_iff data length o.delivered).mpr hends
  let st₁ : State := { st with
    dev := st.dev.setPort ⟨e, .output 0⟩ (deliver o.delivered (st.dev.port ⟨e, .output 0⟩)) }
  have h₁ : Wired c e p k st₁ := h.congr rfl rfl
  obtain ⟨d, hstop, -, -⟩ := h₁.stopCapture_eq (o := o)
  unfold endCapture
  rw [h.portOf_output]
  simp only [bind, Except.bind, deliver_userdata o.delivered hu, if_neg hm]
  exact ⟨_, _, by rw [hstop]⟩

/-- **A `takePicture` whose MMAL calls all succeed returns `0`** on an idle port. -/
theorem takePictureOf_succeeds (hi : st.isInitialized)
    (hd : (st.dev.port ⟨e, .output 0⟩).isEnabled = false) (hs : AllSucceed o length) :
    ∃ x st', takePictureOf o data length st = .ok ((0, x), st') := by
  obtain ⟨d, hbegin, hu, -, -⟩ := h.beginCapture_disabled (o := o) data length hd
  rw [if_pos ⟨hs.enableOutput, hs.parameter _ _⟩] at hbegin
  have h' : Wired c e p k { st with changedSettings := false, dev := d } := h.congr rfl rfl
  obtain ⟨x, st', hend⟩ := h'.endCapture_posted data length hu hs.ends
  refine ⟨x, st', ?_⟩
  unfold takePictureOf
  simp only [initializeCam_again hi, hbegin, bind, Except.bind, ne_eq, not_true_eq_false, if_false,
    hend]

end Wired

/-! ## After a failure -/

/-- **A failed `takePicture` leaves an idle port, with which the next one can succeed, exactly when
`MMAL_PARAMETER_CAPTURE` is not refused on an enabled port.** The calls before are any; the port of
an object that is initialised already was idle. -/
theorem recovers_iff {calls : List Call} (data : Nat → UInt8) (length : UInt32)
    (hrun : machine.run State.init calls = .ok st) (hinit : initializeCam o st = .ok (0, st₁))
    (hidle : st.isInitialized → Idle st) :
    Recovers o data length st ↔ ¬ o.refusesCapture := by
  obtain ⟨hi, hidle₁⟩ := initializeCam_idle hidle hinit
  obtain ⟨c, e, p, k, hw⟩ := (ready_of_run hrun).initializeCam hinit hi
  obtain ⟨hd, hsent⟩ := hidle₁ _ hw.output
  obtain ⟨d, hbegin, -, hen, hkeep⟩ := hw.beginCapture_disabled (o := o) data length hd
  have hw' : Wired c e p k { st₁ with changedSettings := false, dev := d } := hw.congr rfl rfl
  by_cases hok : o.enableOutput ∧ o.parameter (.output 2) .capture
  · -- The capture starts: the call does not return `-1`.
    refine iff_of_true (fun x st' ht => ?_) (by simp [Outcomes.refusesCapture, hok])
    rw [if_pos hok] at hbegin
    have hend : endCapture o { st₁ with changedSettings := false, dev := d } =
        .ok ((-1, x), st') := by
      simpa [takePictureOf, hinit, hbegin, bind, Except.bind] using ht
    rcases hw'.endCapture_eq (o := o) with hwait | ⟨x', d', hzero, -, -⟩
    · cases hend.symm.trans hwait
    · have h0 : (-1 : Int32) = 0 :=
        congrArg (fun y => y.1.1) (Except.ok.inj (hend.symm.trans hzero))
      exact absurd h0 (by decide)
  · rw [if_neg hok] at hbegin
    have htake : takePictureOf o data length st =
        .ok ((-1, data, length), { st₁ with changedSettings := false, dev := d }) := by
      simp [takePictureOf, hinit, hbegin, bind, Except.bind]
    cases hoe : o.enableOutput with
    | true =>
      -- The capture is refused: the port stays enabled.
      refine iff_of_false (fun hrec => ?_) (by simp_all [Outcomes.refusesCapture])
      obtain ⟨hdis, -⟩ := (hrec _ _ htake).1 _ hw'.output
      rw [hoe] at hen
      rw [hen] at hdis
      cases hdis
    | false =>
      refine iff_of_true (fun x st' ht => ?_) (by simp [Outcomes.refusesCapture, hoe])
      cases htake.symm.trans ht
      rw [hoe] at hen
      have hidle' : Idle { st₁ with changedSettings := false, dev := d } := by
        intro q hq
        cases hw'.output.symm.trans hq
        exact ⟨hen, (hkeep hoe).trans hsent⟩
      refine ⟨hidle', fun o' data' length' hs => ?_⟩
      exact hw'.takePictureOf_succeeds data' length' hi hen hs

/-- The output port of an initialised object, idle, cannot be enabled. -/
theorem recovers_iff_idle : Recovers { Outcomes.succeed with enableOutput := false } (fun _ => 0)
    100 (initialized .succeed State.init) ↔
      ¬ { Outcomes.succeed with enableOutput := false }.refusesCapture := by
  have hrun : machine.run State.init [.initializeCam .succeed] =
      .ok (initialized .succeed State.init) := rfl
  exact recovers_iff (fun _ => 0) 100 hrun (initializeCam_again rfl) fun _ => idle_initialized

/-- `Outcomes.succeed`, but for the capture. -/
def Outcomes.captureRefused : Outcomes :=
  { Outcomes.succeed with parameter := fun q a => !(q = .output 2 && a = .capture) }

/-- The capture is refused once: the port stays enabled, and the next `takePicture` fails whatever
its own MMAL calls do. -/
theorem not_recovers_captureRefused :
    machine.run State.init [.initializeCam .succeed] = .ok (initialized .succeed State.init) ∧
      Idle (initialized .succeed State.init) ∧
      (∃ x st', takePictureOf .captureRefused (fun _ => 0) 100
          (initialized .succeed State.init) = .ok ((-1, x), st') ∧
        ∀ o', ∃ x' st'', takePictureOf o' (fun _ => 0) 100 st' = .ok ((-1, x'), st'')) ∧
      ¬ Recovers .captureRefused (fun _ => 0) 100 (initialized .succeed State.init) := by
  refine ⟨rfl, idle_initialized, ⟨_, _, rfl, fun o' => ⟨_, _, rfl⟩⟩, fun h => ?_⟩
  obtain ⟨henabled, -⟩ := (h _ _ rfl).1 _ rfl
  cases henabled

end Camerasp.Camera
