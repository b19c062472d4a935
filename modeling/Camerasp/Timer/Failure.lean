import Camerasp.Timer.Serving

/-!
# Failed captures in the ring

`grabPicture` (`timer.cpp`) drops the result of `takePicture`: the frame buffer is encoded and
stored whether or not the camera filled it, and `handle_timeout` moves the ring on in any case.
`libjpeg`'s part, `write_JPEG_dat`, is a parameter.

Results:
* `handleTimeout_moves`: a capture never leaves the ring as it was, so a failed one does not.
* `kept_iff_all_good`: the slots and the saved files hold frames captured successfully, and failed
  captures leave the ring alone, at every point of a run exactly when every completed capture's
  `takePicture` returned `0` with a nonempty frame size.
-/

namespace Camerasp.Timer

open Camerasp.Lib

/-- `ImgInfo` (`jpgrdwr.h`). -/
structure ImgInfo where
  buffer : Buffer
  imageHeight : UInt32
  imageWidth : UInt32
  rowStride : UInt32
  quality : UInt32

/-- `cam_still` as one run of `grabPicture` meets it: its size, and what its `takePicture` does with
the caller's bytes and length. -/
structure Camera where
  height : UInt32
  width : UInt32
  takePicture : Buffer → UInt32 → Int32 × Buffer × UInt32

namespace Camera

/-- Room for the frame and a BMP header. -/
def getImageBufferSize (c : Camera) : UInt32 := c.width * c.height * 3 + 54

/-- The call `grabPicture` makes, on a zeroed buffer. -/
def shoot (c : Camera) : Int32 × Buffer × UInt32 :=
  c.takePicture (List.replicate c.getImageBufferSize.toNat 0) c.getImageBufferSize

/-- The frame `grabPicture` hands to the encoder. -/
def frame (c : Camera) : ImgInfo where
  buffer := c.shoot.2.1
  imageHeight := c.height
  imageWidth := c.width
  rowStride := c.width * 3
  quality := 100

/-- `takePicture` reported success. -/
def Succeeded (c : Camera) : Prop := c.shoot.1 = 0

instance (c : Camera) : Decidable c.Succeeded := inferInstanceAs (Decidable (c.shoot.1 = 0))

/-- The encoding of the camera's frame; a frame without pixels has none. -/
def encoding? (writeJpegDat : ImgInfo → Buffer) (c : Camera) : Option Buffer :=
  if 0 < c.height ∧ 0 < c.width then some (writeJpegDat c.frame) else none

end Camera

/-- `shoot`'s result is not looked at. -/
def grabPicture (writeJpegDat : ImgInfo → Buffer) (camera : Camera) : Buffer :=
  let info := camera.frame
  if 0 < info.imageHeight ∧ 0 < info.imageWidth then writeJpegDat info else []

/-- A capture that succeeded and has pixels. -/
structure Good (c : Camera) : Prop where
  succeeded : c.Succeeded
  height : 0 < c.height
  width : 0 < c.width

theorem Good.encoding {c : Camera} (h : Good c) (writeJpegDat : ImgInfo → Buffer) :
    c.encoding? writeJpegDat = some (grabPicture writeJpegDat c) := by
  unfold Camera.encoding? grabPicture
  rw [if_pos ⟨h.height, h.width⟩]
  exact congrArg some (if_pos ⟨h.height, h.width⟩).symm

theorem good_of_encoding {c : Camera} {writeJpegDat : ImgInfo → Buffer} {b : Buffer}
    (hs : c.Succeeded) (h : c.encoding? writeJpegDat = some b) : Good c := by
  by_cases hp : 0 < c.height ∧ 0 < c.width
  · exact ⟨hs, hp.1, hp.2⟩
  · rw [Camera.encoding?, if_neg hp] at h
    cases h

variable {γ : Type*} {cfg : Config} {grabPicture : γ → Buffer}

/-- **A completed capture never leaves the ring as it was.** -/
theorem handleTimeout_moves {st st' : State} {s : Shot γ} (h : Captured grabPicture st st' s) :
    ¬ SameRing st st' := by
  intro hs
  have hn := h.next
  rw [hs.next] at hn
  revert hn
  generalize st.next = j
  revert j
  decide

/-! ## Where the bytes of the ring and of the files come from -/

/-- The capture whose bytes the slot holds. -/
def lastInto (os : List (Option (Shot γ))) (slot : Slot) : Option (Shot γ) :=
  (Ring.fill (shots os)).slots slot

/-- Every byte stored or saved is what `grabPicture` made of some completed capture. -/
structure Sources (grabPicture : γ → Buffer) (st : State) (os : List (Option (Shot γ))) :
    Prop where
  refines : Refines st os
  stored : ∀ s ∈ shots os, s.buffer = grabPicture s.call
  posted : ∀ slot ∈ st.posted, ∃ s, lastInto os slot = some s
  files : ∀ name b, st.files name = some b → ∃ s ∈ shots os, s.buffer = b

theorem Refines.imagebuffers_of_lastInto {st : State} {os : List (Option (Shot γ))}
    (hr : Refines st os) {slot : Slot} {s : Shot γ} (h : lastInto os slot = some s) :
    st.imagebuffers slot = s.buffer := by
  have h' : (Ring.fill (shots os)).slots slot = some s := h
  rw [hr.slots, h']
  rfl

theorem lastInto_append_none (os : List (Option (Shot γ))) :
    lastInto (os ++ [none]) = lastInto os := by
  unfold lastInto
  rw [shots_append_none]

theorem lastInto_append_some (os : List (Option (Shot γ))) (s : Shot γ) :
    lastInto (os ++ [some s]) =
      Function.update (lastInto os) (Ring.fill (shots os) : Ring (Shot γ) 100).head (some s) := by
  unfold lastInto
  rw [shots_append_some, Ring.fill_snoc]
  rfl

theorem Sources.sameRing {st st' : State} {os : List (Option (Shot γ))}
    (hi : Sources grabPicture st os) (h : SameRing st st')
    (hp : ∀ slot ∈ st'.posted, slot ∈ st.posted)
    (hf : ∀ name b, st'.files name = some b →
      st.files name = some b ∨ ∃ slot ∈ st.posted, b = st.imagebuffers slot) :
    Sources grabPicture st' (os ++ [none]) where
  refines := hi.refines.sameRing h
  stored := by rw [shots_append_none]; exact hi.stored
  posted slot hs := by rw [lastInto_append_none]; exact hi.posted slot (hp slot hs)
  files name b hb := by
    rw [shots_append_none]
    rcases hf name b hb with hb | ⟨slot, hs, rfl⟩
    · exact hi.files name b hb
    · obtain ⟨s, hl⟩ := hi.posted slot hs
      exact ⟨s, Ring.fill_slots_mem hl, (hi.refines.imagebuffers_of_lastInto hl).symm⟩

theorem Sources.captured {st st' : State} {os : List (Option (Shot γ))} {s : Shot γ}
    (hi : Sources grabPicture st os) (h : Captured grabPicture st st' s)
    (hp : ∀ slot ∈ st'.posted, slot ∈ st.posted ∨ s.slot = slot)
    (hf : ∀ name b, st'.files name = some b →
      st.files name = some b ∨ ∃ slot ∈ st.posted, b = st.imagebuffers slot) :
    Sources grabPicture st' (os ++ [some s]) where
  refines := hi.refines.captured h
  stored t ht := by
    rw [shots_append_some, List.mem_append, List.mem_singleton] at ht
    rcases ht with ht | rfl
    · exact hi.stored t ht
    · exact h.buffer
  posted slot hs := by
    rw [lastInto_append_some, ← hi.refines.next]
    by_cases hj : slot = st.next
    · exact ⟨s, by rw [hj, Function.update_self]⟩
    · rw [Function.update_of_ne hj]
      rcases hp slot hs with hs | rfl
      · exact hi.posted slot hs
      · exact absurd h.slot hj
  files name b hb := by
    rw [shots_append_some]
    rcases hf name b hb with hb | ⟨slot, hs, rfl⟩
    · obtain ⟨t, ht, rfl⟩ := hi.files name b hb
      exact ⟨t, List.mem_append_left _ ht, rfl⟩
    · obtain ⟨t, hl⟩ := hi.posted slot hs
      exact ⟨t, List.mem_append_left _ (Ring.fill_slots_mem hl),
        (hi.refines.imagebuffers_of_lastInto hl).symm⟩

theorem sources_of_run {es : List (Event γ)} {st : State}
    (h : (machine cfg grabPicture).run State.init es = .ok st) :
    Sources grabPicture st (history cfg grabPicture es) := by
  have h0 : Sources grabPicture State.init [] :=
    ⟨refines_init, fun _ h => absurd h List.not_mem_nil, fun _ h => absurd h List.not_mem_nil,
      fun _ _ h => absurd h (by simp [State.init])⟩
  refine Machine.run_log_invariant (I := Sources grabPicture) ?_ h0 h
  intro st os e st' o hi he
  obtain ⟨hp, hf⟩ := exec_saves he
  rcases exec_cases he with ⟨rfl, hs⟩ | ⟨_, _, s, -, rfl, -, hc⟩
  · exact hi.sameRing hs (fun slot h => (hp slot h).resolve_right (by simp)) hf
  · exact hi.captured hc (fun slot h => by simpa using hp slot h) hf

/-! ## Failure and the ring -/

/-- What the slots and the files of a state should hold: frames captured successfully. -/
structure HoldsFrames (writeJpegDat : ImgInfo → Buffer) (st : State)
    (os : List (Option (Shot Camera))) : Prop where
  slots : ∀ slot : Slot, Filled os slot → ∃ s, lastInto os slot = some s ∧ s.call.Succeeded ∧
    s.call.encoding? writeJpegDat = some (st.imagebuffers slot)
  files : ∀ name b, st.files name = some b → ∃ s ∈ shots os, s.call.Succeeded ∧
    s.call.encoding? writeJpegDat = some b

/-- At every point of the run the slots and the files hold frames captured successfully, and a
failed capture leaves the ring as it was. -/
structure Kept (cfg : Config) (writeJpegDat : ImgInfo → Buffer) (es : List (Event Camera)) :
    Prop where
  holds : ∀ pre st, pre <+: es →
    (machine cfg (Timer.grabPicture writeJpegDat)).run State.init pre = .ok st →
      HoldsFrames writeJpegDat st (history cfg (Timer.grabPicture writeJpegDat) pre)
  failed : ∀ pre e st st' s, pre ++ [e] <+: es →
    (machine cfg (Timer.grabPicture writeJpegDat)).run State.init pre = .ok st →
    (machine cfg (Timer.grabPicture writeJpegDat)).exec st e = .ok (st', some s) →
      ¬ s.call.Succeeded → SameRing st st'

variable {writeJpegDat : ImgInfo → Buffer}

/-- Frames captured successfully are all the ring and the files hold, if none failed. -/
theorem Sources.holdsFrames {st : State} {os : List (Option (Shot Camera))}
    (hi : Sources (Timer.grabPicture writeJpegDat) st os) (hg : ∀ s ∈ shots os, Good s.call) :
    HoldsFrames writeJpegDat st os where
  slots slot hf := by
    cases hl : lastInto os slot with
    | none =>
      have hle := (Ring.fill_slots_none_iff (shots os) slot).mp hl
      exact absurd ((hi.refines.filled_iff slot.isLt).mp hf) (Nat.not_lt.mpr hle)
    | some s =>
      have hm := Ring.fill_slots_mem hl
      refine ⟨s, rfl, (hg s hm).succeeded, ?_⟩
      rw [hi.refines.imagebuffers_of_lastInto hl, hi.stored s hm]
      exact (hg s hm).encoding writeJpegDat
  files name b hb := by
    obtain ⟨s, hm, rfl⟩ := hi.files name b hb
    refine ⟨s, hm, (hg s hm).succeeded, ?_⟩
    rw [hi.stored s hm]
    exact (hg s hm).encoding writeJpegDat

/-- A capture of the run, with the run up to it and its step. -/
theorem mem_history {es : List (Event γ)} {s : Shot γ}
    (h : s ∈ shots (history cfg grabPicture es)) :
    ∃ pre e st st', pre ++ [e] <+: es ∧ (machine cfg grabPicture).run State.init pre = .ok st ∧
      (machine cfg grabPicture).exec st e = .ok (st', some s) := by
  obtain ⟨pre, e, post, st, st', rfl, hr, he⟩ :=
    Machine.mem_log (List.reduceOption_mem_iff.mp h)
  exact ⟨pre, e, st, st', ⟨post, by simp⟩, hr, he⟩

theorem shots_mono {pre es : List (Event γ)} {st : State} (hp : pre <+: es)
    (h : (machine cfg grabPicture).run State.init pre = .ok st) {s : Shot γ}
    (hs : s ∈ shots (history cfg grabPicture pre)) : s ∈ shots (history cfg grabPicture es) := by
  obtain ⟨post, rfl⟩ := hp
  rw [history, Machine.log_append h]
  exact List.reduceOption_mem_iff.mpr
    (List.mem_append_left _ (List.reduceOption_mem_iff.mp hs))

/-- **Failures stay out of the ring and the files exactly when there are none**, at every point of
every run. -/
theorem kept_iff_all_good (cfg : Config) (writeJpegDat : ImgInfo → Buffer)
    (es : List (Event Camera)) :
    Kept cfg writeJpegDat es ↔
      ∀ s ∈ shots (history cfg (Timer.grabPicture writeJpegDat) es), Good s.call := by
  constructor
  · intro hk s hs
    obtain ⟨pre, e, st, st', hp, hr, he⟩ := mem_history hs
    have hlog : history cfg (Timer.grabPicture writeJpegDat) (pre ++ [e]) =
        history cfg (Timer.grabPicture writeJpegDat) pre ++ [some s] := by
      rw [history, Machine.log_append hr, Machine.log_singleton he]
    have hr' : (machine cfg (Timer.grabPicture writeJpegDat)).run State.init (pre ++ [e]) =
        .ok st' := by
      rw [Machine.run_append hr, Machine.run_cons_ok he, Machine.run_nil]
    rcases exec_cases he with ⟨h, -⟩ | ⟨_, _, t, -, ht, -, hc⟩
    · cases h
    obtain rfl : s = t := Option.some.inj ht
    -- Right after its step the capture is the last one into its slot.
    have hl : lastInto (history cfg (Timer.grabPicture writeJpegDat) (pre ++ [e])) s.slot =
        some s := by
      rw [hlog, lastInto_append_some, ← (refines_of_run hr).next, ← hc.slot,
        Function.update_self]
    obtain ⟨t, ht, hsucc, henc⟩ := (hk.holds _ _ hp hr').slots s.slot
      ⟨s, Ring.fill_slots_mem hl, rfl⟩
    obtain rfl : s = t := Option.some.inj (hl.symm.trans ht)
    exact good_of_encoding hsucc henc
  · intro hg
    refine ⟨fun pre st hp hr => ?_, fun pre e st st' s hp hr he hf => ?_⟩
    · exact (sources_of_run hr).holdsFrames fun s hs => hg s (shots_mono hp hr hs)
    · have hs : s ∈ shots (history cfg (Timer.grabPicture writeJpegDat) es) := by
        obtain ⟨post, rfl⟩ := hp
        refine List.reduceOption_mem_iff.mpr ?_
        rw [history, List.append_assoc, Machine.log_append hr, List.singleton_append,
          Machine.log_cons_ok he]
        exact List.mem_append_right _ List.mem_cons_self
      exact absurd (hg s hs).succeeded hf

/-- A camera of one pixel that fails, and one that fills the frame with sevens. -/
def failing : Camera := ⟨1, 1, fun data length => (-1, data, length)⟩

def working : Camera := ⟨1, 1, fun data length => (0, data.map fun _ => 7, length)⟩

/-- A failed capture moves the ring on over a zeroed frame. -/
theorem not_kept_failing :
    ¬ Kept ⟨30, 100, "img"⟩ (·.buffer) [.timeout 30 working, .timeout 60 failing] := by
  intro h
  have hs := h.failed [.timeout 30 working] (.timeout 60 failing) _ _ _ List.prefix_rfl rfl rfl
    (show ¬ failing.Succeeded by decide)
  exact absurd hs.curImg (by decide)

end Camerasp.Timer
