import Camerasp.Lib.Machine

/-!
# The destination of the JPEG compressor (`jpgrdwr.cpp`)

`jpeg_dest` is a vector of bytes that grows by blocks; libjpeg writes through the pointer
`next_output_byte` and counts `free_in_buffer` down. Here the pointer is an index into the vector.

* `myInitDestination`, `myEmptyOutputBuffer`, `myTermDestination` are the three callbacks.
* `machine` is the compressor's side: an `Emit` is one byte written, or a call of
  `empty_output_buffer`. A byte needs a free place and a call a full block; when a full block is
  emptied, at once or before the next byte, is up to the compressor.
* `writeJPEGDat` is `write_JPEG_dat` from `jpeg_start_compress` to its return, for a compressor
  that emits `compress img`. How the scan lines reach the compressor is left out.
* `Keeps` is libjpeg's contract from the compressor's side.

`writeJPEGDat_bytes`: a compressor that keeps to the contract gets a vector, and it holds the bytes
emitted. `exists_keeps`: every sequence of bytes can be emitted.
-/

namespace Camerasp.Jpeg

open Camerasp.Lib (Machine)

/-- `BLOCK_SIZE`. -/
def blockSize : Nat := 16384

/-- `jpeg_dest`. -/
structure JpegDest where
  buffer : List UInt8
  nextOutputByte : Nat
  freeInBuffer : Nat

/-- `std::vector::resize`: cuts off the end, or appends zeros. -/
def resize (buffer : List UInt8) (n : Nat) : List UInt8 :=
  buffer.take n ++ List.replicate (n - buffer.length) 0

def myInitDestination (dest : JpegDest) : JpegDest :=
  let buffer := resize dest.buffer blockSize
  { buffer, nextOutputByte := 0, freeInBuffer := buffer.length }

def myEmptyOutputBuffer (dest : JpegDest) : Bool × JpegDest :=
  let oldsize := dest.buffer.length
  let buffer := resize dest.buffer (oldsize + blockSize)
  (true, { buffer, nextOutputByte := oldsize, freeInBuffer := buffer.length - oldsize })

def myTermDestination (dest : JpegDest) : JpegDest :=
  { dest with buffer := resize dest.buffer (dest.buffer.length - dest.freeInBuffer) }

/-! ## The compressor -/

/-- What libjpeg does with its destination. -/
inductive Emit
  | byte (b : UInt8)
  | empty

/-- The bytes among them. -/
def bytes (es : List Emit) : List UInt8 :=
  es.filterMap fun
    | .byte b => some b
    | .empty => none

/-- `*next_output_byte++ = b`, with `free_in_buffer--`. -/
def JpegDest.put (b : UInt8) (dest : JpegDest) : JpegDest where
  buffer := dest.buffer.set dest.nextOutputByte b
  nextOutputByte := dest.nextOutputByte + 1
  freeInBuffer := dest.freeInBuffer - 1

/-- libjpeg by its contract; a byte without a free place, a call with one, or a call that reports
`FALSE` ends the run. -/
def machine : Machine JpegDest Emit Unit Unit where
  exec dest
    | .byte b => if dest.freeInBuffer = 0 then .error () else .ok (dest.put b, ())
    | .empty =>
      if dest.freeInBuffer = 0 then
        match myEmptyOutputBuffer dest with
        | (true, dest) => .ok (dest, ())
        | (false, _) => .error ()
      else .error ()

/-- The vector that `write_JPEG_dat` returns. -/
def writeJPEGDat {ι : Type*} (compress : ι → List Emit) (img : ι) : Except Unit (List UInt8) :=
  match machine.run (myInitDestination ⟨[], 0, 0⟩) (compress img) with
  | .ok dest => .ok (myTermDestination dest).buffer
  | .error e => .error e

/-! ## What the vector holds -/

/-- The vector is the bytes written so far, and free places after them. -/
structure Holds (dest : JpegDest) (written : List UInt8) : Prop where
  next : dest.nextOutputByte = written.length
  free : dest.nextOutputByte + dest.freeInBuffer = dest.buffer.length
  take : dest.buffer.take dest.nextOutputByte = written

theorem resize_grow (buffer : List UInt8) (n : Nat) :
    resize buffer (buffer.length + n) = buffer ++ List.replicate n 0 := by
  rw [resize, List.take_of_length_le (Nat.le_add_right _ _), Nat.add_sub_cancel_left]

theorem resize_shrink {buffer : List UInt8} {n : Nat} (h : n ≤ buffer.length) :
    resize buffer n = buffer.take n := by
  rw [resize, Nat.sub_eq_zero_of_le h, List.replicate_zero, List.append_nil]

theorem holds_init : Holds (myInitDestination ⟨[], 0, 0⟩) [] where
  next := rfl
  free := by simp [myInitDestination]
  take := rfl

variable {dest dest' : JpegDest} {written : List UInt8}

/-- A byte goes right after the others. -/
theorem Holds.put (h : Holds dest written) (hfree : dest.freeInBuffer ≠ 0) (b : UInt8) :
    Holds (dest.put b) (written ++ [b]) := by
  have hlt : dest.nextOutputByte < dest.buffer.length := by
    have := h.free
    omega
  refine ⟨?_, ?_, ?_⟩
  · rw [List.length_append, ← h.next]
    rfl
  · have := h.free
    simp only [JpegDest.put, List.length_set]
    omega
  · have hset : (dest.buffer.set dest.nextOutputByte b)[dest.nextOutputByte]? = some b :=
      List.getElem?_set_self hlt
    simp only [JpegDest.put]
    rw [List.take_add_one, hset, List.take_set_of_le (Nat.le_refl _), h.take]
    rfl

/-- A new block comes after the full one. -/
theorem Holds.empty (h : Holds dest written) (hfree : dest.freeInBuffer = 0) :
    Holds (myEmptyOutputBuffer dest).2 written := by
  have hfull : dest.nextOutputByte = dest.buffer.length := by
    have := h.free
    omega
  refine ⟨?_, ?_, ?_⟩
  · exact hfull.symm.trans h.next
  · simp only [myEmptyOutputBuffer, resize_grow, List.length_append]
    omega
  · simp only [myEmptyOutputBuffer, resize_grow, List.take_left']
    rw [← h.take, hfull, List.take_length]

/-- The last block is cut off behind the bytes. -/
theorem Holds.term (h : Holds dest written) : (myTermDestination dest).buffer = written := by
  have hle : dest.buffer.length - dest.freeInBuffer = dest.nextOutputByte := by
    have := h.free
    omega
  simp only [myTermDestination]
  rw [resize_shrink (Nat.sub_le _ _), hle, h.take]

theorem bytes_cons (e : Emit) (es : List Emit) : bytes (e :: es) = bytes [e] ++ bytes es := by
  cases e <;> rfl

/-! ## The compressor's contract -/

/-- What a compressor may do that has `room` places left: a byte takes one of them, and when none
is left it may ask for the next block. -/
inductive Keeps : Nat → List Emit → Prop
  | done (room : Nat) : Keeps room []
  | byte {room : Nat} {es : List Emit} (b : UInt8) (h : Keeps room es) :
    Keeps (room + 1) (.byte b :: es)
  | empty {es : List Emit} (h : Keeps blockSize es) : Keeps 0 (.empty :: es)

theorem exec_byte (hfree : dest.freeInBuffer ≠ 0) (b : UInt8) :
    machine.exec dest (.byte b) = .ok (dest.put b, ()) := if_neg hfree

theorem exec_empty (hfree : dest.freeInBuffer = 0) :
    machine.exec dest .empty = .ok ((myEmptyOutputBuffer dest).2, ()) := if_pos hfree

theorem freeInBuffer_init : (myInitDestination ⟨[], 0, 0⟩).freeInBuffer = blockSize := by
  simp [myInitDestination, resize]

theorem freeInBuffer_empty (dest : JpegDest) :
    (myEmptyOutputBuffer dest).2.freeInBuffer = blockSize := by
  simp [myEmptyOutputBuffer, resize_grow]

/-- The destination has the room for every byte, and takes every call. -/
theorem Holds.run {room : Nat} {es : List Emit} (hk : Keeps room es) (h : Holds dest written)
    (hroom : dest.freeInBuffer = room) :
    ∃ dest', machine.run dest es = .ok dest' ∧ Holds dest' (written ++ bytes es) := by
  induction hk generalizing dest written with
  | done room =>
    refine ⟨dest, rfl, ?_⟩
    rw [show bytes [] = [] from rfl, List.append_nil]
    exact h
  | byte b hk ih =>
    have hfree : dest.freeInBuffer ≠ 0 := by
      rw [hroom]
      exact Nat.succ_ne_zero _
    have hput : (dest.put b).freeInBuffer = dest.freeInBuffer - 1 := rfl
    obtain ⟨dest', hr, hd⟩ := ih (h.put hfree b) (by rw [hput, hroom, Nat.add_sub_cancel])
    refine ⟨dest', ?_, ?_⟩
    · rw [Machine.run_cons_ok (exec_byte hfree b)]
      exact hr
    · rw [bytes_cons, ← List.append_assoc]
      exact hd
  | empty hk ih =>
    obtain ⟨dest', hr, hd⟩ := ih (h.empty hroom) (freeInBuffer_empty dest)
    refine ⟨dest', ?_, ?_⟩
    · rw [Machine.run_cons_ok (exec_empty hroom)]
      exact hr
    · rw [bytes_cons, ← List.append_assoc, show bytes [.empty] = [] from rfl, List.append_nil]
      exact hd

/-! ## Every sequence of bytes is emitted by some compressor -/

/-- The compressor's `emit_byte` with `free` places left: a block is emptied as soon as it is
full. -/
def emitBytes : Nat → List UInt8 → List Emit
  | _, [] => []
  | free, b :: bs =>
    if free = 1 then .byte b :: .empty :: emitBytes blockSize bs
    else .byte b :: emitBytes (free - 1) bs

theorem bytes_emitBytes (free : Nat) (bs : List UInt8) : bytes (emitBytes free bs) = bs := by
  induction bs generalizing free with
  | nil => rfl
  | cons b bs ih =>
    rw [emitBytes]
    split_ifs
    · rw [bytes_cons, bytes_cons .empty, ih]
      rfl
    · rw [bytes_cons, ih]
      rfl

theorem keeps_emitBytes {free : Nat} (hfree : free ≠ 0) (bs : List UInt8) :
    Keeps free (emitBytes free bs) := by
  induction bs generalizing free with
  | nil => exact .done free
  | cons b bs ih =>
    rw [emitBytes]
    split_ifs with h1
    · subst h1
      exact .byte b (.empty (ih (by decide)))
    · obtain ⟨room, rfl⟩ := Nat.exists_eq_succ_of_ne_zero hfree
      exact .byte b (ih (by omega))

/-- One that asks for the next block only when it has a byte for it: up to a whole block there is
no call at all. -/
theorem keeps_replicate (n : Nat) (b : UInt8) : Keeps n (List.replicate n (.byte b)) := by
  induction n with
  | zero => exact .done 0
  | succ n ih => exact .byte b ih

theorem bytes_replicate (n : Nat) (b : UInt8) :
    bytes (List.replicate n (.byte b)) = List.replicate n b :=
  List.filterMap_replicate_of_some rfl

/-- **Every sequence of bytes is emitted within the contract.** -/
theorem exists_keeps (bs : List UInt8) : ∃ es, Keeps blockSize es ∧ bytes es = bs :=
  ⟨emitBytes blockSize bs, keeps_emitBytes (by decide) bs, bytes_emitBytes blockSize bs⟩

/-! ## What `write_JPEG_dat` returns -/

/-- **Whatever a compressor emits within its contract is returned**, whole and in order. -/
theorem writeJPEGDat_bytes {ι : Type*} {compress : ι → List Emit} {img : ι}
    (h : Keeps blockSize (compress img)) :
    writeJPEGDat compress img = .ok (bytes (compress img)) := by
  obtain ⟨dest, hr, hd⟩ := holds_init.run h freeInBuffer_init
  have hterm := hd.term
  rw [List.nil_append] at hterm
  rw [writeJPEGDat, hr]
  exact congrArg Except.ok hterm

/-- A block filled and given away with no byte behind it, a block filled and kept, and one byte
more than a block. -/
theorem writeJPEGDat_bytes_block :
    writeJPEGDat (emitBytes blockSize) (List.replicate blockSize 7) =
        .ok (List.replicate blockSize 7) ∧
      writeJPEGDat (List.replicate blockSize) (.byte 7) = .ok (List.replicate blockSize 7) ∧
      writeJPEGDat (emitBytes blockSize) (List.replicate (blockSize + 1) 7) =
        .ok (List.replicate (blockSize + 1) 7) := by
  have hb : blockSize ≠ 0 := by decide
  refine ⟨?_, ?_, ?_⟩
  · rw [writeJPEGDat_bytes (keeps_emitBytes hb _), bytes_emitBytes]
  · rw [writeJPEGDat_bytes (keeps_replicate blockSize 7), bytes_replicate]
  · rw [writeJPEGDat_bytes (keeps_emitBytes hb _), bytes_emitBytes]

end Camerasp.Jpeg
