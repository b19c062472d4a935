import Camerasp.Lib.Memory
import Mathlib.Algebra.Ring.Nat
import Mathlib.Data.List.Induction
import Mathlib.Logic.Function.Basic
import Mathlib.Tactic.Common

/-!
# The encoder's buffers during one capture (`cam_still.cpp`)

`bufferCallback` is `buffer_callback`: the encoder hands over one output buffer, its first
`length` bytes are appended to the caller's memory if they fit, and a buffer with an end flag
posts the semaphore that `takePicture` waits for. `unsigned int` is `UInt32`, so the size check
and the offset wrap as in the code; memories are functions of the index.

* A buffer with `cmd = 0` is stream data from the pool, any other an event. The port counts the
  stream buffers it holds (`sent`) and those in the pool's queue.
* `takePicture` here is the call from `startCapture` on. Its buffers are those delivered up to
  the read of `userdata->offset`, in order; `none` is a `sem_wait` that nothing ends. When the
  record it reads is still allocated is the matter of another module.

`UserData.take` is what one buffer does to the record, `received` a whole sequence;
`deliver_userdata` says that the callbacks do just that.
-/

namespace Camerasp.Camera

open Camerasp.Lib

/-- `MMAL_BUFFER_HEADER_FLAG_FRAME_END`. -/
def flagFrameEnd : UInt32 := (1 : UInt32) <<< 2

/-- `MMAL_BUFFER_HEADER_FLAG_TRANSMISSION_FAILED`. -/
def flagTransmissionFailed : UInt32 := (1 : UInt32) <<< 10

/-- `END_FLAG` of `buffer_callback`. -/
def endFlag : UInt32 := flagFrameEnd ||| flagTransmissionFailed

/-- The fields of `MMAL_BUFFER_HEADER_T` that the code or a claim reads; `data` is the memory the
pointer leads to. -/
structure BufferHeader where
  cmd : UInt32
  data : Nat → UInt8
  offset : UInt32
  length : UInt32
  flags : UInt32

namespace BufferHeader

/-- Stream data, not an event. -/
def isStream (b : BufferHeader) : Bool := b.cmd == 0

def hasFlag (b : BufferHeader) (flag : UInt32) : Bool := b.flags &&& flag != 0

/-- The buffer makes `buffer_callback` post the semaphore. -/
def ends (b : BufferHeader) : Bool := endFlag &&& b.flags != 0

/-- The bytes `buffer_callback` copies: the first `length` of `data`. -/
def copied (b : BufferHeader) : List UInt8 := (List.range b.length.toNat).map b.data

/-- The valid bytes by MMAL's definition: `data[offset .. offset + length)`. -/
def payload (b : BufferHeader) : List UInt8 :=
  (List.range b.length.toNat).map fun i => b.data (b.offset.toNat + i)

end BufferHeader

/-- `RASPICAM_USERDATA`: the posts of `mutex`, the caller's memory and where the next byte goes. -/
structure UserData where
  mutex : Nat
  data : Nat → UInt8
  offset : UInt32
  length : UInt32

/-- The encoder's output port, and the pool its `userdata` leads to. -/
structure Port where
  userdata : Option UserData
  isEnabled : Bool
  queue : Nat
  sent : Nat

/-- `mmal_buffer_header_release`: a stream buffer goes back to the pool's queue. -/
def Port.release (p : Port) (b : BufferHeader) : Port :=
  if b.isStream then { p with queue := p.queue + 1, sent := p.sent - 1 } else p

/-- `mmal_queue_get` and, if there is a buffer, `mmal_port_send_buffer`. -/
def Port.sendFromPool (p : Port) : Port :=
  if p.queue = 0 then p else { p with queue := p.queue - 1, sent := p.sent + 1 }

/-- The copy loop from index `i`, with `n` rounds to go. -/
def copyLoop (b : BufferHeader) : Nat → Nat → UserData → UserData
  | 0, _, u => u
  | n + 1, i, u =>
    copyLoop b n (i + 1)
      { u with data := Function.update u.data u.offset.toNat (b.data i), offset := u.offset + 1 }

/-- `sem_post(userdata->mutex)`, for a buffer with an end flag. -/
def UserData.post (u : UserData) (b : BufferHeader) : UserData :=
  if b.ends then { u with mutex := u.mutex + 1 } else u

def bufferCallback (b : BufferHeader) (p : Port) : Port :=
  match p.userdata with
  | none => p.release b
  | some u =>
    if b.length + u.offset > u.length then p.release b
    else
      let u := (copyLoop b b.length.toNat 0 u).post b
      let p := { p with userdata := some u }.release b
      if p.isEnabled then p.sendFromPool else p

/-- The callbacks of a sequence of buffers, in the order of delivery. -/
def deliver (bs : List BufferHeader) (p : Port) : Port :=
  bs.foldl (fun p b => bufferCallback b p) p

/-- The record as `takePicture` sets it up. -/
def UserData.start (data : Nat → UInt8) (length : UInt32) : UserData := ⟨0, data, 0, length⟩

/-- `takePicture` from `startCapture` on: its result, the caller's memory and `*length`. -/
def takePicture (started : Bool) (data : Nat → UInt8) (length : UInt32)
    (bs : List BufferHeader) (p : Port) : Option (Int32 × (Nat → UInt8) × UInt32) :=
  match (deliver bs { p with userdata := some (.start data length) }).userdata with
  | none => none
  | some u =>
    if started then
      if u.mutex = 0 then none else some (0, u.data, u.offset)
    else some (-1, u.data, length)

/-! ## What the buffers do to the record -/

/-- The size check: the buffer is taken at offset `o` of a destination of `length` bytes. -/
def BufferHeader.fits (b : BufferHeader) (length o : UInt32) : Bool :=
  !decide (b.length + o > length)

/-- One buffer's effect on the record. -/
def UserData.take (u : UserData) (b : BufferHeader) : UserData :=
  if b.fits u.length u.offset then (copyLoop b b.length.toNat 0 u).post b else u

/-- A sequence of buffers' effect on the record. -/
def received (bs : List BufferHeader) (u : UserData) : UserData := bs.foldl UserData.take u

/-- How far the buffers that fit fill a destination of `length` bytes, in 32 bits. -/
def filled (length : UInt32) (bs : List BufferHeader) : UInt32 :=
  bs.foldl (fun o b => if b.fits length o then o + b.length else o) 0

@[simp] theorem release_userdata (p : Port) (b : BufferHeader) :
    (p.release b).userdata = p.userdata := by
  unfold Port.release
  split_ifs <;> rfl

@[simp] theorem sendFromPool_userdata (p : Port) : p.sendFromPool.userdata = p.userdata := by
  unfold Port.sendFromPool
  split_ifs <;> rfl

theorem bufferCallback_userdata {p : Port} {u : UserData} (b : BufferHeader)
    (h : p.userdata = some u) : (bufferCallback b p).userdata = some (u.take b) := by
  unfold bufferCallback UserData.take BufferHeader.fits
  simp only [h]
  by_cases hc : b.length + u.offset > u.length
  · simp [hc, h]
  · rw [if_neg hc, decide_eq_false hc, Bool.not_false, if_pos rfl]
    split_ifs <;> simp

/-- **The callbacks do to the record what the buffers do.** -/
theorem deliver_userdata {p : Port} {u : UserData} (bs : List BufferHeader)
    (h : p.userdata = some u) : (deliver bs p).userdata = some (received bs u) := by
  induction bs generalizing p u with
  | nil => exact h
  | cons b bs ih => exact ih (bufferCallback_userdata b h)

theorem received_snoc (bs : List BufferHeader) (b : BufferHeader) (u : UserData) :
    received (bs ++ [b]) u = (received bs u).take b := by
  simp only [received, List.foldl_append, List.foldl_cons, List.foldl_nil]

theorem filled_snoc (length : UInt32) (bs : List BufferHeader) (b : BufferHeader) :
    filled length (bs ++ [b]) =
      if b.fits length (filled length bs) then filled length bs + b.length
      else filled length bs := by
  rw [filled, List.foldl_append]
  rfl

/-! ### One buffer -/

theorem copyLoop_mutex (b : BufferHeader) : ∀ (n i : Nat) (u : UserData),
    (copyLoop b n i u).mutex = u.mutex
  | 0, _, _ => rfl
  | n + 1, i, _ => copyLoop_mutex b n (i + 1) _

theorem copyLoop_length (b : BufferHeader) : ∀ (n i : Nat) (u : UserData),
    (copyLoop b n i u).length = u.length
  | 0, _, _ => rfl
  | n + 1, i, _ => copyLoop_length b n (i + 1) _

theorem copyLoop_offset (b : BufferHeader) : ∀ (n i : Nat) (u : UserData),
    (copyLoop b n i u).offset = u.offset + UInt32.ofNat n
  | 0, _, u => (UInt32.add_zero u.offset).symm
  | n + 1, i, u => by
    rw [copyLoop, copyLoop_offset b n]
    show u.offset + 1 + UInt32.ofNat n = u.offset + UInt32.ofNat (n + 1)
    rw [UInt32.ofNat_add, UInt32.add_assoc, UInt32.add_comm 1]
    rfl

/-- Without a wrap of the offset the loop writes one run of bytes. -/
theorem copyLoop_data (b : BufferHeader) : ∀ (n i : Nat) (u : UserData),
    u.offset.toNat + n < 2 ^ 32 →
      (copyLoop b n i u).data =
        write u.data u.offset.toNat ((List.range' i n).map b.data)
  | 0, _, _, _ => rfl
  | n + 1, i, u, h => by
    have ho : (u.offset + 1).toNat = u.offset.toNat + 1 := by
      rw [UInt32.toNat_add]
      exact Nat.mod_eq_of_lt (by show u.offset.toNat + 1 < 2 ^ 32; omega)
    rw [copyLoop, copyLoop_data b n (i + 1) _ (by show (u.offset + 1).toNat + n < 2 ^ 32; omega)]
    show write _ (u.offset + 1).toNat _ = _
    rw [ho, List.range'_succ, List.map_cons, write]

theorem post_eq (u : UserData) (b : BufferHeader) :
    u.post b = { u with mutex := u.mutex + b.ends.toNat } := by
  unfold UserData.post
  cases b.ends <;> simp

@[simp] theorem take_length (u : UserData) (b : BufferHeader) : (u.take b).length = u.length := by
  unfold UserData.take
  split_ifs
  · rw [post_eq]
    exact copyLoop_length b _ _ u
  · rfl

theorem take_offset (u : UserData) (b : BufferHeader) :
    (u.take b).offset = if b.fits u.length u.offset then u.offset + b.length else u.offset := by
  unfold UserData.take
  split_ifs
  · rw [post_eq]
    show (copyLoop b b.length.toNat 0 u).offset = _
    rw [copyLoop_offset, UInt32.ofNat_toNat]
  · rfl

theorem take_mutex (u : UserData) (b : BufferHeader) :
    (u.take b).mutex =
      if b.fits u.length u.offset then u.mutex + b.ends.toNat else u.mutex := by
  unfold UserData.take
  split_ifs
  · rw [post_eq]
    show (copyLoop b b.length.toNat 0 u).mutex + _ = _
    rw [copyLoop_mutex]
  · rfl

/-- A buffer that fits without a wrap is appended. -/
theorem take_view {u : UserData} {b : BufferHeader} (hf : b.fits u.length u.offset)
    (hw : u.offset.toNat + b.length.toNat < 2 ^ 32) :
    view (u.take b).data (u.take b).offset.toNat = view u.data u.offset.toNat ++ b.copied := by
  have ho : (u.take b).offset.toNat = u.offset.toNat + b.length.toNat := by
    rw [take_offset, if_pos hf, UInt32.toNat_add]
    exact Nat.mod_eq_of_lt hw
  have hd : (u.take b).data = write u.data u.offset.toNat b.copied := by
    rw [UserData.take, if_pos hf, post_eq]
    show (copyLoop b b.length.toNat 0 u).data = _
    rw [copyLoop_data b _ _ u hw, ← List.range_eq_range']
    rfl
  have hl : b.copied.length = b.length.toNat := by
    rw [BufferHeader.copied, List.length_map, List.length_range]
  rw [ho, hd, ← hl]
  exact view_write _ _ _

/-! ### A sequence of buffers -/

theorem received_length (bs : List BufferHeader) (u : UserData) :
    (received bs u).length = u.length := by
  induction bs generalizing u with
  | nil => rfl
  | cons b bs ih => exact (ih (u.take b)).trans (take_length u b)

section Start

variable (data : Nat → UInt8) (length : UInt32)

@[simp] theorem received_start_length (bs : List BufferHeader) :
    (received bs (.start data length)).length = length := received_length bs _

/-- The record's offset is what the buffers that fit fill. -/
theorem received_start_offset (bs : List BufferHeader) :
    (received bs (.start data length)).offset = filled length bs := by
  induction bs using List.reverseRecOn with
  | nil => rfl
  | append_singleton bs b ih =>
    rw [received_snoc, take_offset, filled_snoc, received_start_length, ih]

/-- **The semaphore is posted exactly when a buffer with an end flag has passed the size check.** -/
theorem posted_iff (bs : List BufferHeader) :
    (received bs (.start data length)).mutex ≠ 0 ↔
      ∃ pre b, pre ++ [b] <+: bs ∧ b.ends ∧ b.fits length (filled length pre) := by
  induction bs using List.reverseRecOn with
  | nil =>
    refine ⟨fun h => absurd rfl h, ?_⟩
    rintro ⟨pre, b, hp, -⟩
    exact absurd (List.prefix_nil.mp hp) (by simp)
  | append_singleton bs c ih =>
    rw [received_snoc, take_mutex, received_start_length, received_start_offset]
    constructor
    · intro h
      by_cases hm : (received bs (.start data length)).mutex = 0
      · refine ⟨bs, c, List.prefix_rfl, ?_⟩
        cases hf : c.fits length (filled length bs) <;> cases he : c.ends <;> simp_all
      · obtain ⟨pre, b, hp, hb⟩ := ih.mp hm
        exact ⟨pre, b, hp.trans (List.prefix_append _ _), hb⟩
    · rintro ⟨pre, b, hp, he, hf⟩
      rcases List.prefix_concat_iff.mp hp with heq | hp
      · obtain ⟨rfl, hbc⟩ := List.append_inj' heq rfl
        obtain rfl : b = c := List.head_eq_of_cons_eq hbc
        rw [if_pos hf, he]
        exact Nat.succ_ne_zero _
      · have := ih.mpr ⟨pre, b, hp, he, hf⟩
        split_ifs <;> omega

end Start

end Camerasp.Camera
