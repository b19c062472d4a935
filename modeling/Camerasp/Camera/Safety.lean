import Camerasp.Camera.Lifecycle

/-!
# Which runs go through good pointers only

`Safe` is what is wanted of one call: it goes through no null pointer and to nothing destroyed,
hands every pool back to the port that made it, and a `takePicture` whose `initialize` fails
reports the failure. `Copes` is the condition on the failures under which a call does so, and
`Timely` the one on where setters stand.

* `steps_safe`: a run whose calls all cope with their failures is safe throughout; one with setters
  has to be `Timely`, too. The invariant is `Sane`: an initialised object is `Wired`, and settings
  that wait for the next `createCamera` find no port of an earlier encoder. A run without setters
  keeps it by itself (`steps_timely`), since `createCamera` commits the settings.
* `lifecycle_safe_iff`: in runs of `initialize`, `open` and `release` nothing else is safe.
* The failures a call does not cope with, each with a fault or a wrong pool behind it: the
  encoder's component or its set-up fails while `encoderPool` is still the camera's pool
  (`createEncoder_null`, `createEncoder_dangling`, `createEncoder_noOutputs`,
  `createEncoder_early`); the camera's pointer dangles (`createCamera_dangling`); `takePicture` goes
  on after an `initialize` that failed.
* A setter too late, after `release` or with no capture before it, makes the next
  `commitParameters` go through the output port of the destroyed encoder (`createCamera_stale`).
-/

namespace Camerasp.Camera

open Camerasp.Lib (Machine)

/-- The call is a `takePicture` whose `initialize` reports a failure. -/
def FailsToInitialize (st : State) : Call → Prop
  | .takePicture o _ _ => ∃ st', initializeCam o st = .ok (-1, st')
  | _ => False

/-- What is wanted of a call. -/
structure Safe (st : State) (call : Call) (r : Except Stop (State × Int32)) : Prop where
  noFault : ∀ e, r = .error e → e.isFault = false
  ownPort : ∀ st' v, r = .ok (st', v) → st'.res.wrongPools = st.res.wrongPools
  reports : FailsToInitialize st call → ∃ st', r = .ok (st', -1)

/-- The failures an `initialize` copes with. -/
structure Outcomes.Copes (o : Outcomes) : Prop where
  camera : o.camera ≠ .dangling
  encoder : o.cameraUp → o.encoderReady

/-- The failures a call copes with. -/
def Copes (st : State) : Call → Prop
  | .set _ => True
  | .initializeCam o => st.isInitialized ∨ o.Copes
  | .openCam o => st.isInitialized ∨ o.Copes
  | .takePicture o _ _ => st.isInitialized ∨ o.initializes
  | .release _ => True

/-- A setter comes before there has been an encoder, or while the object is initialised, and there
is a capture between it and the next `release`. -/
def Timely (st : State) : Call → Prop
  | .set _ => st.isInitialized ∨ st.ptr.encoderOutputPort = none
  | .release _ => st.isInitialized → ¬ st.changedSettings
  | _ => True

instance (o : Outcomes) : Decidable o.Copes :=
  decidable_of_iff (o.camera ≠ .dangling ∧ (o.cameraUp → o.encoderReady))
    ⟨fun h => ⟨h.1, h.2⟩, fun h => ⟨h.camera, h.encoder⟩⟩

instance (st : State) : (call : Call) → Decidable (Copes st call)
  | .set _ => isTrue trivial
  | .initializeCam o => inferInstanceAs (Decidable (st.isInitialized ∨ o.Copes))
  | .openCam o => inferInstanceAs (Decidable (st.isInitialized ∨ o.Copes))
  | .takePicture o _ _ => inferInstanceAs (Decidable (st.isInitialized ∨ o.initializes))
  | .release _ => isTrue trivial

instance (st : State) : (call : Call) → Decidable (Timely st call)
  | .set _ => inferInstanceAs (Decidable (st.isInitialized ∨ st.ptr.encoderOutputPort = none))
  | .release _ => inferInstanceAs (Decidable (st.isInitialized → ¬ st.changedSettings))
  | .initializeCam _ | .openCam _ | .takePicture .. => isTrue trivial

/-- An initialised object has its pointers. -/
def Ready (st : State) : Prop := st.isInitialized → ∃ c e p k, Wired c e p k st

/-- What the calls keep: an initialised object has its pointers, and settings that an object which
is not initialised has yet to commit find no port of an earlier encoder. -/
structure Sane (st : State) : Prop where
  numbered : st.res.Numbered
  ready : Ready st
  fresh : ¬ st.isInitialized → st.changedSettings → st.ptr.encoderOutputPort = none

/-- An initialised object has committed its settings. -/
def Committed (st : State) : Prop := st.isInitialized → ¬ st.changedSettings

variable {o : Outcomes} {st st' : State}

theorem Sane.staleFree (h : Sane st) : StaleFree st := by
  by_cases hi : st.isInitialized
  · obtain ⟨c, e, p, k, hw⟩ := h.ready hi
    exact hw.staleFree
  · intro hch q hq
    rw [h.fresh hi hch] at hq
    cases hq

/-- An object that is not initialised and has committed its settings. -/
theorem sane_of_down (hn : st.res.Numbered) (hi : ¬ st.isInitialized)
    (hch : st.changedSettings = false) : Sane st where
  numbered := hn
  ready := fun hi' => absurd hi' hi
  fresh := fun _ hch' => absurd (hch.symm.trans hch') Bool.false_ne_true

theorem committed_of_not (hi : ¬ st.isInitialized) : Committed st := fun hi' => absurd hi' hi

/-! ## One step -/

theorem Outcomes.initializes_iff :
    o.initializes ↔ o.cameraUp ∧ o.encoderReady ∧ o.encoderPool ∧ o.connects := by
  simp [Outcomes.initializes, Outcomes.encoderUp, and_assoc]

theorem sane_initialized (hn : st.res.Numbered) : Sane (initialized o st) where
  numbered := (numbered_encoderMade (numbered_cameraMade hn)).connection
  ready := fun _ => ⟨_, _, _, _, wired_initialized⟩
  fresh := fun hi => absurd rfl hi

theorem committed_initialized : Committed (initialized o st) := fun _ => Bool.false_ne_true

/-- **An `initialize` that copes with its failures ends**: with an initialised, wired object, or
with `-1` and an object that is not initialised. Every pool goes back to its own port. -/
theorem initializeCam_copes (hs : Sane st) (hc : st.isInitialized ∨ o.Copes) :
    ∃ r st', initializeCam o st = .ok (r, st') ∧ Sane st' ∧ (Committed st → Committed st') ∧
      st'.res.wrongPools = st.res.wrongPools := by
  by_cases hi : st.isInitialized
  · exact ⟨0, st, initializeCam_again hi, hs, id, rfl⟩
  replace hc := hc.resolve_left hi
  have hsf : StaleFree (withCamera st) := hs.staleFree.withCamera
  by_cases hu : o.cameraUp
  swap
  · obtain ⟨st', h, hg⟩ := initializeCam_cameraDown hi hu hc.camera (fun _ => hsf)
    have hi' : ¬ st'.isInitialized := by
      rw [hg.isInitialized]
      exact hi
    have hfresh : st'.changedSettings → st'.ptr.encoderOutputPort = none := by
      intro hch
      rw [hg.encoderOutputPort]
      exact hs.fresh hi (hg.changedSettings hch)
    exact ⟨_, st', h, ⟨hg.numbered hs.numbered, fun h => absurd h hi', fun _ => hfresh⟩,
      fun _ => committed_of_not hi', hg.wrongPools⟩
  have he := hc.encoder hu
  by_cases hp : o.encoderPool
  swap
  · obtain ⟨st₁, h₁, hg, -, hw⟩ := @createEncoder_noPool o (cameraMade o st) he hp
    obtain ⟨d, h⟩ := initializeCam_encoderDown hi hu hsf h₁ hg
    have hi' : ¬ st₁.isInitialized := by
      rw [hg.isInitialized]
      exact hi
    refine ⟨_, _, h, ?_, fun _ => ?_, by simpa [cameraMade] using hw⟩
    · have hn := hg.numbered (numbered_cameraMade hs.numbered)
      exact sane_of_down (hn.destroyComponent _ _) hi' hg.changedSettings
    · exact committed_of_not hi'
  have hup : o.encoderUp := by simp [Outcomes.encoderUp, he, hp]
  by_cases hcn : o.connects
  swap
  · obtain ⟨st', h, hg⟩ := initializeCam_unconnected hi hu hsf hup hcn
    have hi' : ¬ st'.isInitialized := by
      rw [hg.isInitialized]
      exact hi
    have hn := hg.numbered (numbered_encoderMade (numbered_cameraMade hs.numbered))
    exact ⟨_, st', h, sane_of_down hn hi' hg.changedSettings, fun _ => committed_of_not hi',
      hg.wrongPools⟩
  have hall : o.initializes := Outcomes.initializes_iff.mpr ⟨hu, he, hp, hcn⟩
  exact ⟨_, _, initializeCam_up hi hall hsf, sane_initialized hs.numbered,
    fun _ => committed_initialized, rfl⟩

/-- A `takePicture` with a wired object behind it. -/
theorem takePictureOf_wired {c e p k : Nat} {st' : State} {r : Int32} (data : Nat → UInt8)
    (length : UInt32) (h : initializeCam o st = .ok (r, st')) (hw : Wired c e p k st') :
    takePictureOf o data length st = .error .waits ∨
      ∃ x d, takePictureOf o data length st =
        .ok (x, { st' with changedSettings := false, dev := d }) := by
  obtain ⟨r', d, hb, -, -, -⟩ := hw.beginCapture_eq (o := o) data length
  unfold takePictureOf
  simp only [h, hb, bind, Except.bind]
  split
  · exact .inr ⟨_, _, rfl⟩
  · have hw' : Wired c e p k { st' with changedSettings := false, dev := d } := hw.congr rfl rfl
    rcases hw'.endCapture_eq (o := o) with he | ⟨x, d', he, -, -⟩
    · exact .inl he
    · exact .inr ⟨_, _, he⟩

/-- What a call that copes with its failures does: it waits for ever, or it ends with every pool
handed back to its own port. -/
theorem exec_copes (hs : Sane st) {call : Call} (hc : Copes st call) :
    machine.exec st call = .error .waits ∨
      ∃ st' v, machine.exec st call = .ok (st', v) ∧ (Timely st call → Sane st') ∧
        ((∀ s, call ≠ .set s) → Committed st → Committed st') ∧
        st'.res.wrongPools = st.res.wrongPools := by
  cases call with
  | set s =>
    refine .inr ⟨set s st, 0, rfl, fun ht => ⟨hs.numbered, ?_, ?_⟩, fun h => absurd rfl (h s), rfl⟩
    · intro hi
      obtain ⟨c, e, p, k, hw⟩ := hs.ready hi
      exact ⟨c, e, p, k, hw.congr rfl rfl⟩
    · exact fun hi _ => Or.resolve_left ht hi
  | initializeCam o =>
    obtain ⟨r, st', h, hs', hd, hw⟩ := initializeCam_copes hs hc
    exact .inr ⟨st', r, exec_initializeCam h, fun _ => hs', fun _ => hd, hw⟩
  | openCam o =>
    obtain ⟨r, st', h, hs', hd, hw⟩ := initializeCam_copes hs hc
    exact .inr ⟨st', _, exec_openCam h, fun _ => hs', fun _ => hd, hw⟩
  | takePicture o data length =>
    obtain ⟨r, st', h, hs', hi', hwp⟩ : ∃ r st', initializeCam o st = .ok (r, st') ∧
        Sane st' ∧ st'.isInitialized ∧ st'.res.wrongPools = st.res.wrongPools := by
      by_cases hi : st.isInitialized
      · exact ⟨0, st, initializeCam_again hi, hs, hi, rfl⟩
      · have hup := initializeCam_up hi (Or.resolve_left hc hi) hs.staleFree.withCamera
        exact ⟨_, _, hup, sane_initialized hs.numbered, rfl, rfl⟩
    obtain ⟨c, e, p, k, hw⟩ := hs'.ready hi'
    rcases takePictureOf_wired (o := o) data length h hw with ht | ⟨x, d, ht⟩
    · exact .inl (exec_takePicture_error ht)
    · refine .inr ⟨_, x.1, exec_takePicture ht, fun _ => ⟨hs'.numbered, ?_, ?_⟩, fun _ _ _ => ?_,
        hwp⟩
      · exact fun _ => ⟨c, e, p, k, hw.congr rfl rfl⟩
      · exact fun hi => absurd hi' hi
      · exact Bool.false_ne_true
  | release o =>
    by_cases hi : st.isInitialized
    · obtain ⟨c, e, p, k, hw⟩ := hs.ready hi
      obtain ⟨d, h⟩ := hw.release_eq (o := o) hi
      refine .inr ⟨_, 0, exec_release h, fun ht => ?_, fun _ _ => ?_, ?_⟩
      · have hn := (((hs.numbered.destroyConnection o.destroyConnection k).destroyPool
          ⟨e, .output 0⟩ p).destroyComponent o.destroyEncoder e).destroyComponent o.destroyCamera c
        exact sane_of_down hn Bool.false_ne_true (Bool.eq_false_iff.mpr (ht hi))
      · exact committed_of_not Bool.false_ne_true
      · simp [Resources.destroyPool, hw.poolLive]
    · exact .inr ⟨st, 0, exec_release (release_again hi), fun _ => hs, fun _ => id, rfl⟩

/-- A `takePicture` that copes does not fail to initialise and go on. -/
theorem Copes.not_failsToInitialize (hs : Sane st) {call : Call} (hc : Copes st call) :
    ¬ FailsToInitialize st call := by
  cases call with
  | takePicture o data length =>
    rintro ⟨st', h⟩
    have h0 : ∃ st'', initializeCam o st = .ok (0, st'') := by
      by_cases hi : st.isInitialized
      · exact ⟨st, initializeCam_again hi⟩
      · exact ⟨_, initializeCam_up hi (Or.resolve_left hc hi) hs.staleFree.withCamera⟩
    obtain ⟨st'', h0⟩ := h0
    rw [h] at h0
    have hr : (-1 : Int32) = 0 := congrArg Prod.fst (Except.ok.inj h0)
    exact absurd hr (by decide)
  | _ => exact id

theorem Copes.safe (hs : Sane st) {call : Call} (hc : Copes st call) :
    Safe st call (machine.exec st call) := by
  refine ⟨?_, ?_, fun h => absurd h (hc.not_failsToInitialize hs)⟩
  · intro e he
    rcases exec_copes hs hc with h | ⟨st', v, h, -, -, -⟩
    · rw [h] at he
      cases he
      rfl
    · rw [h] at he
      cases he
  · intro st' v he
    rcases exec_copes hs hc with h | ⟨st'', v', h, -, -, hw⟩
    · rw [h] at he
      cases he
    · rw [h] at he
      cases he
      exact hw

theorem Copes.sane {v : Int32} {call : Call} (hs : Sane st) (hc : Copes st call)
    (ht : Timely st call) (he : machine.exec st call = .ok (st', v)) : Sane st' := by
  rcases exec_copes hs hc with h | ⟨st'', v', h, hs', -, -⟩
  · rw [h] at he
    cases he
  · rw [h] at he
    cases he
    exact hs' ht

theorem Copes.committed {v : Int32} {call : Call} (hs : Sane st) (hc : Copes st call)
    (hset : ∀ s, call ≠ .set s) (hd : Committed st)
    (he : machine.exec st call = .ok (st', v)) : Committed st' := by
  rcases exec_copes hs hc with h | ⟨st'', v', h, -, hd', -⟩
  · rw [h] at he
    cases he
  · rw [h] at he
    cases he
    exact hd' hset hd

/-- With committed settings every call but a setter comes in time. -/
theorem Committed.timely (hd : Committed st) {call : Call} (hset : ∀ s, call ≠ .set s) :
    Timely st call := by
  cases call with
  | set s => exact absurd rfl (hset s)
  | release o => exact hd
  | _ => trivial

/-! ## Failures that no call copes with -/

/-- **An `initialize` that does not cope faults, or hands the camera's pool to the encoder.** -/
theorem initializeCam_not_copes (hs : Sane st) (hi : ¬ st.isInitialized) (hc : ¬ o.Copes) :
    (∃ e, initializeCam o st = .error e ∧ e.isFault) ∨
      ∃ st', initializeCam o st = .ok (-1, st') ∧
        st'.res.wrongPools = st.res.wrongPools + 1 := by
  have hsf : StaleFree (withCamera st) := hs.staleFree.withCamera
  by_cases hd : o.camera = .dangling
  · have hn : st.res.next ∉ st.res.components :=
      fun hm => Nat.lt_irrefl _ (hs.numbered.components _ hm)
    exact .inl ⟨_, initializeCam_cameraStops hi (createCamera_dangling hd hn), rfl⟩
  obtain ⟨hu, hr⟩ : o.cameraUp ∧ ¬ o.encoderReady := by
    by_contra h
    exact hc ⟨hd, fun hu => not_not.mp fun hr => h ⟨hu, hr⟩⟩
  have hn : (cameraMade o st).res.Numbered := numbered_cameraMade hs.numbered
  have hp : (cameraMade o st).ptr.encoderPool = some (st.res.next + 1) := rfl
  have hpool : (st.res.next + 1, ⟨st.res.next, .output 2⟩) ∈ (cameraMade o st).res.pools :=
    List.mem_cons_self
  cases hcr : o.encoder with
  | null => exact .inl ⟨_, initializeCam_encoderStops hi hu hsf (createEncoder_null hp hcr), rfl⟩
  | dangling =>
    have hne : (cameraMade o st).res.next ∉ (cameraMade o st).res.components :=
      fun hm => Nat.lt_irrefl _ (hn.components _ hm)
    exact .inl ⟨_, initializeCam_encoderStops hi hu hsf (createEncoder_dangling hp hcr hne), rfl⟩
  | created =>
    by_cases hout : o.encoderOutputs
    swap
    · exact .inl ⟨_, initializeCam_encoderStops hi hu hsf
        (createEncoder_noOutputs hp hpool hcr hout), rfl⟩
    obtain ⟨st₁, h₁, hg, -, hw⟩ := createEncoder_early hp hpool hcr hout hr
    obtain ⟨d, h⟩ := initializeCam_encoderDown hi hu hsf h₁ hg
    refine .inr ⟨_, h, ?_⟩
    -- The only pool with that number is the camera's.
    have hwrong : (st.res.next + 1, (⟨(cameraMade o st).res.next, .output 0⟩ : PortId)) ∉
        (cameraMade o st).res.pools := by
      intro hm
      rcases List.mem_cons.mp hm with hm | hm
      · simp at hm
      · have hlt := hs.numbered.pools _ hm
        exact absurd hlt (Nat.not_lt.mpr (Nat.le_succ _))
    rw [if_neg hwrong] at hw
    simpa [cameraMade] using hw

/-- `initialize`, `open` and `release`. -/
def Call.IsLifecycle : Call → Prop
  | .initializeCam _ | .openCam _ | .release _ => True
  | .set _ | .takePicture .. => False

theorem Safe.copes (hs : Sane st) {call : Call} (hl : call.IsLifecycle)
    (h : Safe st call (machine.exec st call)) : Copes st call := by
  -- Both kinds of set-up go the way of `initialize`.
  have hinit : ∀ {o : Outcomes} {r : Except Stop (State × Int32)}, Safe st call r →
      (∀ e, initializeCam o st = .error e → r = .error e) →
      (∀ st', initializeCam o st = .ok (-1, st') → ∃ v, r = .ok (st', v)) →
      st.isInitialized ∨ o.Copes := by
    intro o r h herr hok
    by_contra hc
    obtain ⟨hi, hc⟩ := not_or.mp hc
    rcases initializeCam_not_copes hs hi hc with ⟨e, he, hf⟩ | ⟨st', he, hw⟩
    · rw [h.noFault e (herr e he)] at hf
      cases hf
    · obtain ⟨v, hr⟩ := hok st' he
      have hown := h.ownPort st' v hr
      omega
  cases call with
  | initializeCam o =>
    exact hinit h (fun _ => exec_initializeCam_error) (fun _ he => ⟨_, exec_initializeCam he⟩)
  | openCam o =>
    exact hinit h (fun _ => exec_openCam_error) (fun _ he => ⟨_, exec_openCam he⟩)
  | release o => trivial
  | set s => exact hl.elim
  | takePicture o data length => exact hl.elim

/-! ## Runs -/

theorem sane_init : Sane State.init where
  numbered := ⟨nofun, nofun⟩
  ready := nofun
  fresh := fun _ _ => rfl

/-- **Without a setter everything comes in time.** -/
theorem steps_timely {calls : List Call}
    (h : machine.Steps (fun st call _ => Copes st call) State.init calls)
    (hset : ∀ call ∈ calls, ∀ s, call ≠ .set s) :
    machine.Steps (fun st call _ => Timely st call) State.init calls := by
  have hboth := h.and (Machine.steps_of_forall_mem hset State.init)
  refine Machine.steps_of_inv (I := fun st => Sane st ∧ Committed st) ?_ ?_
    ⟨sane_init, nofun⟩ hboth
  · exact fun st call hI hc => hI.2.timely hc.2
  · intro st call st' v hI hc he
    exact ⟨hc.1.sane hI.1 (hI.2.timely hc.2) he, hc.1.committed hI.1 hc.2 hI.2 he⟩

theorem safe_of_copes_timely {calls : List Call}
    (h : machine.Steps (fun st call _ => Copes st call) State.init calls)
    (ht : machine.Steps (fun st call _ => Timely st call) State.init calls) :
    machine.Steps Safe State.init calls :=
  Machine.steps_of_inv (fun _ _ hs hc => hc.1.safe hs)
    (fun _ _ _ _ hs hc he => hc.1.sane hs hc.2 he) sane_init (h.and ht)

/-- **Runs of `initialize`, `open` and `release` are safe exactly where they cope.** -/
theorem lifecycle_safe_iff {calls : List Call} (hl : ∀ call ∈ calls, call.IsLifecycle) :
    machine.Steps (fun st call _ => Copes st call) State.init calls ↔
      machine.Steps Safe State.init calls := by
  have hset : ∀ call : Call, call.IsLifecycle → ∀ s, call ≠ .set s := by
    rintro call hcall s rfl
    exact hcall
  constructor
  · intro h
    exact safe_of_copes_timely h (steps_timely h fun call hmem => hset call (hl call hmem))
  · intro h
    have hboth := h.and (Machine.steps_of_forall_mem hl State.init)
    refine Machine.steps_of_inv (I := fun st => Sane st ∧ Committed st) ?_ ?_
      ⟨sane_init, nofun⟩ hboth
    · exact fun st call hI hc => hc.1.copes hI.1 hc.2
    · intro st call st' v hI hc he
      have hcopes : Copes st call := by
        rw [← he] at hc
        exact hc.1.copes hI.1 hc.2
      exact ⟨hcopes.sane hI.1 (hI.2.timely (hset call hc.2)) he,
        hcopes.committed hI.1 (hset call hc.2) hI.2 he⟩

/-- **A run whose calls all cope with their failures is safe throughout**, where its setters, if it
has any, come in time. -/
theorem steps_safe {calls : List Call}
    (h : machine.Steps (fun st call _ => Copes st call) State.init calls)
    (ht : (∃ s, .set s ∈ calls) →
      machine.Steps (fun st call _ => Timely st call) State.init calls) :
    machine.Steps Safe State.init calls := by
  refine safe_of_copes_timely h ?_
  by_cases hset : ∃ s, .set s ∈ calls
  · exact ht hset
  · refine steps_timely h ?_
    rintro call hmem s rfl
    exact hset ⟨s, hmem⟩

/-- A camera that cannot be enabled, a setter before the retry, and a capture. -/
theorem steps_safe_retry :
    machine.Steps Safe State.init
      [.initializeCam { Outcomes.succeed with enableCamera := false }, .set (.quality 90),
        .openCam .succeed, .takePicture .shot (fun _ => 0) 100, .release .succeed] :=
  steps_safe (by decide) (fun _ => by decide)

/-- The encoder's component cannot be created: `destroyEncoder` reads its output ports all the
same. -/
theorem noEncoder_not_safe :
    ¬ machine.Steps Safe State.init [.initializeCam { Outcomes.succeed with encoder := .null }] := by
  rintro ⟨h, -⟩
  have hstop : machine.exec State.init (.initializeCam { Outcomes.succeed with encoder := .null }) =
      .error .null := rfl
  exact absurd (h.noFault _ hstop) (by decide)

end Camerasp.Camera
