import Camerasp.Camera.Callback
import Mathlib.Data.List.Basic

/-!
# Does the frame end, and does it arrive whole

A buffer that does not fit is released without a look at its flags, and a buffer that fits is
appended whatever it is. So:

* `postsAtEnd_iff`: an end flag always posts the semaphore exactly when the first buffer that
  carries one passes the size check.
* `takePicture_frame`: what `takePicture` reports as a frame is the frame exactly when its stream
  buffers all fit and start at offset `0`, and no other buffer with bytes fits.
-/

namespace Camerasp.Camera

open Camerasp.Lib

/-! ## The end of the frame is reported -/

/-- Once a buffer with an end flag has been processed the semaphore has been posted. -/
def PostsAtEnd (data : Nat → UInt8) (length : UInt32) (bs : List BufferHeader) (p : Port) : Prop :=
  ∀ pre b, pre ++ [b] <+: bs → b.ends →
    ∃ u, (deliver (pre ++ [b]) { p with userdata := some (.start data length) }).userdata = some u ∧
      u.mutex ≠ 0

/-- A list with an element of a kind has a first one. -/
theorem exists_first {α : Type*} {q : α → Bool} {l : List α} {a : α} (ha : a ∈ l) (hq : q a) :
    ∃ pre b, pre ++ [b] <+: l ∧ q b ∧ ∀ c ∈ pre, ¬ q c := by
  cases hf : l.find? q with
  | none => exact absurd hq (List.find?_eq_none.mp hf a ha)
  | some b =>
    obtain ⟨hb, pre, post, rfl, hpre⟩ := List.find?_eq_some_iff_append.mp hf
    exact ⟨pre, b, ⟨post, by simp⟩, hb, fun c hc => by simpa using hpre c hc⟩

/-- **The end of the frame is always reported exactly when its first end flag comes with a buffer
that fits.** -/
theorem postsAtEnd_iff (data : Nat → UInt8) (length : UInt32) (bs : List BufferHeader)
    (p : Port) :
    PostsAtEnd data length bs p ↔
      ∀ pre b, pre ++ [b] <+: bs → b.ends → (∀ c ∈ pre, ¬ c.ends) →
        b.fits length (filled length pre) := by
  constructor
  · intro h pre b hp he hpre
    obtain ⟨u, hu, hm⟩ := h pre b hp he
    rw [deliver_userdata _ rfl] at hu
    obtain rfl := Option.some.inj hu
    obtain ⟨pre', c, hp', hc, hf⟩ := (posted_iff data length _).mp hm
    rcases List.prefix_concat_iff.mp hp' with heq | hp'
    · obtain ⟨rfl, hcb⟩ := List.append_inj' heq rfl
      obtain rfl : c = b := List.head_eq_of_cons_eq hcb
      exact hf
    · exact absurd hc (hpre c (hp'.subset (by simp)))
  · intro h pre b hp he
    refine ⟨_, deliver_userdata _ rfl, (posted_iff data length _).mpr ?_⟩
    obtain ⟨pre', c, hp', hc, hpre⟩ :=
      exists_first (q := BufferHeader.ends) (List.mem_append_right pre List.mem_cons_self) he
    exact ⟨pre', c, hp', hc, h pre' c (hp'.trans hp) hc hpre⟩

/-- One last buffer of two bytes for a destination of one byte. -/
def tooLong : BufferHeader := ⟨0, fun _ => 7, 0, 2, flagFrameEnd⟩

/-- The buffer ends the frame, and nothing is posted. -/
theorem not_postsAtEnd_tooLong : ¬ PostsAtEnd (fun _ => 0) 1 [tooLong] ⟨none, true, 0, 1⟩ := by
  intro h
  obtain ⟨u, hu, hm⟩ := h [] tooLong List.prefix_rfl (by decide)
  obtain rfl := Option.some.inj hu
  exact hm (by decide)

/-! ## The frame arrives -/

/-- `e` is the stream buffer that ends the frame, after `pre`, and nothing was lost on the way. -/
structure FrameSplit (bs pre : List BufferHeader) (e : BufferHeader) (post : List BufferHeader) :
    Prop where
  split : bs = pre ++ e :: post
  stream : e.isStream
  frameEnd : e.hasFlag flagFrameEnd
  first : ∀ c ∈ pre, c.isStream → ¬ c.hasFlag flagFrameEnd
  transmitted : ∀ c ∈ pre ++ [e], ¬ c.hasFlag flagTransmissionFailed

/-- The stream buffers of the frame. -/
def streamOf (bs : List BufferHeader) : List BufferHeader := bs.filter BufferHeader.isStream

/-- What the caller may rely on: `length'` bytes of `data'` are the payloads of the frame's stream
buffers, in order, each of which moved the offset on by its length; no event moved it. -/
def FrameDelivered (data : Nat → UInt8) (length : UInt32) (bs : List BufferHeader)
    (data' : Nat → UInt8) (length' : UInt32) : Prop :=
  ∃ pre e post, FrameSplit bs pre e post ∧
    view data' length'.toNat = (streamOf (pre ++ [e])).flatMap BufferHeader.payload ∧
    (∀ p b, p ++ [b] <+: pre ++ [e] → b.isStream →
      (received (p ++ [b]) (.start data length)).offset =
        (received p (.start data length)).offset + b.length) ∧
    ∀ p b, p ++ [b] <+: bs → ¬ b.isStream →
      (received (p ++ [b]) (.start data length)).offset = (received p (.start data length)).offset

/-- `takePicture` returns `0`: `startCapture` succeeded and a buffer with an end flag fitted. -/
def Returns (started : Bool) (length : UInt32) (bs : List BufferHeader) : Prop :=
  started ∧ ∃ pre b, pre ++ [b] <+: bs ∧ b.ends ∧ b.fits length (filled length pre)

/-- The stream buffers of the frame fit and start at their data pointer, and the buffers that fit
besides them, events or later ones, are empty. -/
def FrameFits (length : UInt32) (bs : List BufferHeader) : Prop :=
  ∃ pre e post, FrameSplit bs pre e post ∧
    (∀ p b, p ++ [b] <+: pre ++ [e] → b.isStream →
      (filled length p).toNat + b.length.toNat ≤ length.toNat ∧ b.copied = b.payload) ∧
    (∀ p b, p ++ [b] <+: bs → ¬ b.isStream → b.fits length (filled length p) → b.length = 0) ∧
    ∀ q b, q ++ [b] <+: post → b.fits length (filled length (pre ++ e :: q)) → b.length = 0

theorem takePicture_eq_zero {started : Bool} {data data' : Nat → UInt8} {length length' : UInt32}
    {bs : List BufferHeader} {p : Port} :
    takePicture started data length bs p = some (0, data', length') ↔
      Returns started length bs ∧ data' = (received bs (.start data length)).data ∧
        length' = filled length bs := by
  have hp := posted_iff data length bs
  rw [takePicture, deliver_userdata bs rfl, ← received_start_offset data]
  unfold Returns
  rw [← hp]
  cases started with
  | false => simp
  | true =>
    by_cases hm : (received bs (.start data length)).mutex = 0
    · simp [hm]
    · dsimp only
      rw [if_pos rfl, if_neg hm]
      simp only [Option.some.injEq, Prod.mk.injEq, true_and, ne_eq, hm, not_false_eq_true]
      exact and_congr eq_comm eq_comm

/-! ### Appending without a wrap -/

section Appending

variable (data : Nat → UInt8) {length : UInt32}

theorem fits_iff (b : BufferHeader) (length o : UInt32) :
    b.fits length o ↔ (b.length.toNat + o.toNat) % 2 ^ 32 ≤ length.toNat := by
  unfold BufferHeader.fits
  rw [Bool.not_eq_true', decide_eq_false_iff_not, gt_iff_lt, UInt32.lt_iff_toNat_lt,
    UInt32.toNat_add, Nat.not_lt]

theorem fits_of_le {b : BufferHeader} {o : UInt32}
    (h : o.toNat + b.length.toNat ≤ length.toNat) : b.fits length o := by
  have := length.toNat_lt
  rw [fits_iff, Nat.mod_eq_of_lt (by omega)]
  omega

/-- What is taken never exceeds the destination. -/
theorem filled_le (length : UInt32) (bs : List BufferHeader) :
    (filled length bs).toNat ≤ length.toNat := by
  induction bs using List.reverseRecOn with
  | nil => exact Nat.zero_le _
  | append_singleton bs b ih =>
    rw [filled_snoc]
    split_ifs with hf
    · rw [UInt32.toNat_add, Nat.add_comm]
      exact (fits_iff b length _).mp hf
    · exact ih

/-- A buffer without bytes, or one that does not fit, changes neither the bytes nor the offset. -/
theorem take_inert {u : UserData} {b : BufferHeader}
    (h : b.fits u.length u.offset → b.length = 0) :
    (u.take b).data = u.data ∧ (u.take b).offset = u.offset := by
  unfold UserData.take
  split_ifs with hf
  · rw [h hf, post_eq]
    exact ⟨rfl, rfl⟩
  · exact ⟨rfl, rfl⟩

/-- Where the stream buffers fit without a wrap and nothing else has bytes, the copied bytes of
the stream are what has been appended. -/
theorem view_received {bs : List BufferHeader}
    (hs : ∀ p b, p ++ [b] <+: bs → b.isStream →
      (filled length p).toNat + b.length.toNat ≤ length.toNat)
    (he : ∀ p b, p ++ [b] <+: bs → ¬ b.isStream → b.fits length (filled length p) → b.length = 0) :
    view (received bs (.start data length)).data (filled length bs).toNat =
      (streamOf bs).flatMap BufferHeader.copied := by
  induction bs using List.reverseRecOn with
  | nil => rfl
  | append_singleton bs b ih =>
    have hpre := ih (fun p c hp => hs p c (hp.trans (List.prefix_append _ _)))
      (fun p c hp => he p c (hp.trans (List.prefix_append _ _)))
    have hst : streamOf (bs ++ [b]) = streamOf bs ++ streamOf [b] := List.filter_append _ _
    rw [← received_start_offset data, hst, List.flatMap_append, received_snoc, ← hpre,
      ← received_start_offset data length bs]
    by_cases hb : b.isStream
    · have hle := hs bs b List.prefix_rfl hb
      have hlt := length.toNat_lt
      rw [← received_start_offset data] at hle
      rw [take_view (by rw [received_start_length]; exact fits_of_le hle) (by omega)]
      simp [streamOf, hb]
    · obtain ⟨hd, ho⟩ := take_inert (u := received bs (.start data length)) (b := b)
        (by rw [received_start_length, received_start_offset]; exact he bs b List.prefix_rfl hb)
      rw [hd, ho]
      simp [streamOf, hb]

/-- Buffers without bytes, or that do not fit, change nothing. -/
theorem received_inert (length : UInt32) (bs post : List BufferHeader)
    (h : ∀ q b, q ++ [b] <+: post → b.fits length (filled length (bs ++ q)) → b.length = 0) :
    (received (bs ++ post) (.start data length)).data = (received bs (.start data length)).data ∧
      filled length (bs ++ post) = filled length bs := by
  induction post using List.reverseRecOn with
  | nil => rw [List.append_nil]; exact ⟨rfl, rfl⟩
  | append_singleton post b ih =>
    obtain ⟨hd, ho⟩ := ih fun q c hq => h q c (hq.trans (List.prefix_append _ _))
    have hb := take_inert (u := received (bs ++ post) (.start data length)) (b := b)
      (by rw [received_start_length, received_start_offset]; exact h post b List.prefix_rfl)
    rw [← List.append_assoc, received_snoc, ← received_start_offset data, received_snoc, hb.1, hb.2,
      received_start_offset]
    exact ⟨hd, ho⟩

end Appending

/-! ### What is appended and what the frame is -/

section Delivery

variable {data : Nat → UInt8} {length : UInt32}

theorem received_snoc_offset (p : List BufferHeader) (b : BufferHeader) :
    (received (p ++ [b]) (.start data length)).offset =
      if b.fits length (filled length p) then (received p (.start data length)).offset + b.length
      else (received p (.start data length)).offset := by
  rw [received_snoc, take_offset, received_start_length, received_start_offset]

/-- Moving the offset on by the length of a buffer is taking it; an empty one always fits. -/
theorem offset_add_iff (p : List BufferHeader) (b : BufferHeader) :
    (received (p ++ [b]) (.start data length)).offset =
        (received p (.start data length)).offset + b.length ↔
      b.fits length (filled length p) ∨ b.length = 0 := by
  rw [received_snoc_offset]
  split_ifs with hf
  · exact ⟨fun _ => .inl hf, fun _ => rfl⟩
  · refine ⟨fun h => .inr ?_, fun h => ?_⟩
    · exact UInt32.left_eq_add.mp h
    · rw [h.resolve_left hf, UInt32.add_zero]

theorem offset_eq_iff (p : List BufferHeader) (b : BufferHeader) :
    (received (p ++ [b]) (.start data length)).offset =
        (received p (.start data length)).offset ↔
      (b.fits length (filled length p) → b.length = 0) := by
  rw [received_snoc_offset]
  split_ifs with hf
  · exact ⟨fun h _ => UInt32.add_eq_left.mp h, fun h => by rw [h hf, UInt32.add_zero]⟩
  · exact ⟨fun _ h => absurd h hf, fun _ => rfl⟩

theorem mem_split {α : Type*} {l : List α} {a : α} (h : a ∈ l) : ∃ p, p ++ [a] <+: l := by
  obtain ⟨p, q, rfl⟩ := List.append_of_mem h
  exact ⟨p, q, by simp⟩

/-- **Where the frame fits it is delivered.** -/
theorem FrameFits.delivered {bs : List BufferHeader} (h : FrameFits length bs) :
    FrameDelivered data length bs (received bs (.start data length)).data (filled length bs) := by
  obtain ⟨pre, e, post, hsp, hs, he, hq⟩ := h
  have hbs : bs = (pre ++ [e]) ++ post := by rw [hsp.split]; simp
  have hin := received_inert data length (pre ++ [e]) post
    fun q b hp hf => hq q b hp (by simpa using hf)
  have hpre : pre ++ [e] <+: bs := ⟨post, hbs.symm⟩
  have hview := view_received data (fun p b hp hb => (hs p b hp hb).1)
    fun p b hp => he p b (hp.trans hpre)
  refine ⟨pre, e, post, hsp, ?_, ?_, ?_⟩
  · rw [hbs, hin.1, hin.2, hview]
    refine List.flatMap_congr fun b hb => ?_
    obtain ⟨hm, hst⟩ := List.mem_filter.mp hb
    obtain ⟨p, hp⟩ := mem_split hm
    exact (hs p b hp hst).2
  · exact fun p b hp hb => (offset_add_iff p b).mpr (.inl (fits_of_le (hs p b hp hb).1))
  · exact fun p b hp hb => (offset_eq_iff p b).mpr (he p b hp hb)

/-- The bytes the buffers carry. -/
def total (bs : List BufferHeader) : Nat := (bs.map fun b => b.length.toNat).sum

theorem total_append (bs cs : List BufferHeader) : total (bs ++ cs) = total bs + total cs := by
  rw [total, List.map_append, List.sum_append]
  rfl

theorem total_singleton (b : BufferHeader) : total [b] = b.length.toNat := rfl

theorem filled_snoc_toNat {bs : List BufferHeader} {b : BufferHeader}
    (hw : (filled length bs).toNat + b.length.toNat < 2 ^ 32) :
    (filled length (bs ++ [b])).toNat =
      if b.fits length (filled length bs) then (filled length bs).toNat + b.length.toNat
      else (filled length bs).toNat := by
  rw [filled_snoc]
  split_ifs
  · rw [UInt32.toNat_add]
    exact Nat.mod_eq_of_lt hw
  · rfl

theorem filled_le_total (length : UInt32) (bs : List BufferHeader) (h : total bs < 2 ^ 32) :
    (filled length bs).toNat ≤ total bs := by
  induction bs using List.reverseRecOn with
  | nil => exact Nat.le_refl 0
  | append_singleton bs b ih =>
    rw [total_append, total_singleton] at h ⊢
    have hle := ih (by omega)
    rw [filled_snoc_toNat (by omega)]
    split_ifs <;> omega

theorem filled_mono (length : UInt32) (bs cs : List BufferHeader) (h : total (bs ++ cs) < 2 ^ 32) :
    (filled length bs).toNat ≤ (filled length (bs ++ cs)).toNat := by
  induction cs using List.reverseRecOn with
  | nil => simp
  | append_singleton cs b ih =>
    rw [← List.append_assoc, total_append, total_singleton] at h
    have hle := filled_le_total length (bs ++ cs) (by omega)
    have hmono := ih (by omega)
    rw [← List.append_assoc, filled_snoc_toNat (by omega)]
    split_ifs <;> omega

theorem total_mono {bs cs : List BufferHeader} (h : bs <+: cs) : total bs ≤ total cs := by
  obtain ⟨ds, rfl⟩ := h
  rw [total_append]
  exact Nat.le_add_right _ _

/-- Lists of pieces of the same lengths are equal piece by piece. -/
theorem eq_of_flatMap_eq {α β : Type*} {f g : α → List β} :
    ∀ {l : List α}, (∀ a ∈ l, (f a).length = (g a).length) → l.flatMap f = l.flatMap g →
      ∀ a ∈ l, f a = g a
  | [], _, _, _, ha => absurd ha List.not_mem_nil
  | b :: l, hl, he, a, ha => by
    rw [List.flatMap_cons, List.flatMap_cons] at he
    obtain ⟨hb, ht⟩ := List.append_inj he (hl b List.mem_cons_self)
    rcases List.mem_cons.mp ha with rfl | ha
    · exact hb
    · exact eq_of_flatMap_eq (fun c hc => hl c (List.mem_cons_of_mem b hc)) ht a ha

/-- **A delivered frame fits**, as long as the offset cannot wrap. -/
theorem FrameDelivered.fits {bs : List BufferHeader} (ht : total bs < 2 ^ 32)
    (h : FrameDelivered data length bs (received bs (.start data length)).data
      (filled length bs)) : FrameFits length bs := by
  obtain ⟨pre, e, post, hsp, hv, hs, he⟩ := h
  have hbs : bs = (pre ++ [e]) ++ post := by rw [hsp.split]; simp
  have hpre : pre ++ [e] <+: bs := ⟨post, hbs.symm⟩
  have hev : ∀ p b, p ++ [b] <+: bs → ¬ b.isStream → b.fits length (filled length p) →
      b.length = 0 := fun p b hp hb => (offset_eq_iff p b).mp (he p b hp hb)
  have hle : ∀ p b, p ++ [b] <+: pre ++ [e] → b.isStream →
      (filled length p).toNat + b.length.toNat ≤ length.toNat := by
    intro p b hp hb
    have htot := total_mono (hp.trans hpre)
    rw [total_append, total_singleton] at htot
    have hfl := filled_le_total length p (by omega)
    rcases (offset_add_iff p b).mp (hs p b hp hb) with hf | h0
    · rw [fits_iff, Nat.mod_eq_of_lt (by omega)] at hf
      omega
    · have := filled_le length p
      rw [h0]
      exact this
  have hview := view_received data hle fun p b hp => hev p b (hp.trans hpre)
  -- The offset has not moved since the end of the frame.
  have hlen : (filled length bs).toNat = (filled length (pre ++ [e])).toNat := by
    have h1 := congrArg List.length hv
    have h2 := congrArg List.length hview
    rw [view_length] at h1 h2
    rw [h1, h2, List.length_flatMap, List.length_flatMap]
    refine congrArg List.sum (List.map_congr_left fun b _ => ?_)
    rw [BufferHeader.payload, BufferHeader.copied, List.length_map, List.length_map]
  have hq : ∀ q b, q ++ [b] <+: post → b.fits length (filled length (pre ++ e :: q)) →
      b.length = 0 := by
    rintro q b ⟨r, rfl⟩ hf
    have heq : pre ++ e :: q = (pre ++ [e]) ++ q := by simp
    have hbs' : bs = ((pre ++ [e]) ++ q ++ [b]) ++ r := by rw [hbs]; simp
    rw [heq] at hf
    have htot := total_mono ⟨r, hbs'.symm⟩
    have h1 := filled_mono length (pre ++ [e]) q
      (by rw [total_append] at htot; omega)
    have h2 := filled_mono length ((pre ++ [e]) ++ q ++ [b]) r
      (by rw [← hbs']; exact ht)
    rw [total_append, total_singleton] at htot
    have h3 := filled_le_total length ((pre ++ [e]) ++ q) (by omega)
    rw [← hbs', hlen, filled_snoc_toNat (by omega), if_pos hf] at h2
    exact UInt32.toNat_inj.mp (show b.length.toNat = 0 by omega)
  refine ⟨pre, e, post, hsp, fun p b hp hb => ⟨hle p b hp hb, ?_⟩, hev, hq⟩
  have hin := received_inert data length (pre ++ [e]) post
    fun q b hp hf => hq q b hp (by simpa using hf)
  rw [hbs, hin.1, hin.2, hview] at hv
  refine eq_of_flatMap_eq (fun c _ => ?_) hv b
    (List.mem_filter.mpr ⟨hp.subset (by simp), hb⟩)
  rw [BufferHeader.payload, BufferHeader.copied, List.length_map, List.length_map]

end Delivery

/-- **What `takePicture` reports as a frame is the frame where the frame fits**, and only there,
as long as fewer than `2 ^ 32` bytes are delivered, so that the offset cannot wrap. -/
theorem takePicture_frame (started : Bool) (data : Nat → UInt8) (length : UInt32)
    (bs : List BufferHeader) (p : Port) :
    ((Returns started length bs → FrameFits length bs) →
        ∀ data' length', takePicture started data length bs p = some (0, data', length') →
          FrameDelivered data length bs data' length') ∧
      (total bs < 2 ^ 32 →
        (∀ data' length', takePicture started data length bs p = some (0, data', length') →
          FrameDelivered data length bs data' length') →
        Returns started length bs → FrameFits length bs) := by
  constructor
  · intro h data' length' ht
    obtain ⟨hr, rfl, rfl⟩ := takePicture_eq_zero.mp ht
    exact (h hr).delivered
  · intro ht h hr
    exact (h _ _ (takePicture_eq_zero.mpr ⟨hr, rfl, rfl⟩)).fits ht

/-- A buffer of two bytes, and the last one of one byte. -/
def two : BufferHeader := ⟨0, fun _ => 1, 0, 2, 0⟩

def lastOne : BufferHeader := ⟨0, fun _ => 2, 0, 1, flagFrameEnd⟩

theorem takePicture_frame_two :
    ((Returns true 3 [two, lastOne] → FrameFits 3 [two, lastOne]) →
        ∀ data' length',
          takePicture true (fun _ => 0) 3 [two, lastOne] ⟨none, true, 0, 2⟩ =
              some (0, data', length') →
            FrameDelivered (fun _ => 0) 3 [two, lastOne] data' length') ∧
      ((∀ data' length',
          takePicture true (fun _ => 0) 3 [two, lastOne] ⟨none, true, 0, 2⟩ =
              some (0, data', length') →
            FrameDelivered (fun _ => 0) 3 [two, lastOne] data' length') →
        Returns true 3 [two, lastOne] → FrameFits 3 [two, lastOne]) :=
  ⟨(takePicture_frame true (fun _ => 0) 3 [two, lastOne] ⟨none, true, 0, 2⟩).1,
    (takePicture_frame true (fun _ => 0) 3 [two, lastOne] ⟨none, true, 0, 2⟩).2 (by decide)⟩

/-- With room for one byte the first buffer is dropped, the second kept, and the call succeeds. -/
theorem takePicture_dropped :
    ∃ data' length',
      takePicture true (fun _ => 0) 1 [two, lastOne] ⟨none, true, 0, 2⟩ =
          some (0, data', length') ∧
        ¬ FrameDelivered (fun _ => 0) 1 [two, lastOne] data' length' := by
  refine ⟨_, _, rfl, ?_⟩
  rintro ⟨pre, e, post, hsp, -, hs, -⟩
  have hsplit := hsp.split
  rcases pre with _ | ⟨c, pre⟩
  · obtain rfl : two = e := (List.cons.inj hsplit).1
    exact absurd hsp.frameEnd (by decide)
  · obtain rfl : two = c := (List.cons.inj hsplit).1
    exact absurd (hs [] two ⟨pre ++ [e], rfl⟩ rfl) (by decide)

end Camerasp.Camera
