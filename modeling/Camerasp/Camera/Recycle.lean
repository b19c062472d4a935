import Camerasp.Camera.Device

/-!
# How many buffers the encoder holds

`startCapture` hands all buffers of the pool to the encoder's output port. From then on each
callback releases the buffer it was given, and only one that has copied its bytes sends another.
A stream buffer that is refused for its size goes back to the pool and nothing comes instead:
`recycles_iff`.

A stream buffer comes out of those the port holds; an event does not.
-/

namespace Camerasp.Camera

/-- The output port once `startCapture` has sent all buffers of the pool's queue to it, with the
record of `takePicture` in its `userdata`. -/
def Port.started (data : Nat → UInt8) (length : UInt32) (p : Port) : Port :=
  sendBuffers (fun _ => true) p.queue
    { p with userdata := some (.start data length), isEnabled := true }

/-- The buffers that an invocation sends to the port, next to what `release` does. -/
def sentBack (b : BufferHeader) (p : Port) : Nat := (bufferCallback b p).sent - (p.release b).sent

/-- Every invocation that releases a buffer to the pool sends one back, and the number of buffers
the port holds stays the same. -/
def Recycles (bs : List BufferHeader) (p : Port) : Prop :=
  ∀ pre b, pre ++ [b] <+: bs →
    (b.isStream → sentBack b (deliver pre p) = 1) ∧ (deliver (pre ++ [b]) p).sent = p.sent

theorem sendBuffers_all (n : Nat) (p : Port) :
    sendBuffers (fun _ => true) n p = { p with queue := p.queue - n, sent := p.sent + n } := by
  induction n with
  | zero => rfl
  | succ n ih =>
    rw [sendBuffers, ih]
    rfl

theorem started_eq (data : Nat → UInt8) (length : UInt32) (p : Port) :
    p.started data length = ⟨some (.start data length), true, 0, p.sent + p.queue⟩ := by
  rw [Port.started, sendBuffers_all]
  simp only [Nat.sub_self]

theorem deliver_snoc (bs : List BufferHeader) (b : BufferHeader) (p : Port) :
    deliver (bs ++ [b]) p = bufferCallback b (deliver bs p) := by
  simp only [deliver, List.foldl_append, List.foldl_cons, List.foldl_nil]

section Invocation

variable {p : Port} {u : UserData} {b : BufferHeader}

theorem bufferCallback_of_fits (hu : p.userdata = some u) (he : p.isEnabled)
    (hf : b.fits u.length u.offset) :
    bufferCallback b p = ({ p with userdata := some (u.take b) }.release b).sendFromPool := by
  have hc : ¬ b.length + u.offset > u.length := by simpa [BufferHeader.fits] using hf
  have he' (v : UserData) : (({ p with userdata := some v }).release b).isEnabled := by
    unfold Port.release
    split_ifs <;> exact he
  rw [bufferCallback, hu, UserData.take, if_pos hf]
  dsimp only
  rw [if_neg hc, if_pos (he' _)]

theorem bufferCallback_of_not_fits (hu : p.userdata = some u) (hf : ¬ b.fits u.length u.offset) :
    bufferCallback b p = p.release b := by
  have hc : b.length + u.offset > u.length := by simpa [BufferHeader.fits] using hf
  rw [bufferCallback, hu]
  dsimp only
  rw [if_pos hc]

/-- With an empty queue, a stream buffer that is taken is replaced, and an event changes
nothing. -/
theorem bufferCallback_recycles (hu : p.userdata = some u) (he : p.isEnabled) (hq : p.queue = 0)
    (hs : b.isStream → p.sent ≠ 0 ∧ b.fits u.length u.offset) :
    (bufferCallback b p).isEnabled ∧ (bufferCallback b p).queue = 0 ∧
      (bufferCallback b p).sent = p.sent ∧ (b.isStream → sentBack b p = 1) := by
  by_cases hst : b.isStream
  · obtain ⟨hsent, hf⟩ := hs hst
    unfold sentBack
    rw [bufferCallback_of_fits hu he hf]
    simp only [Port.release, hst, if_true, Port.sendFromPool, hq, Nat.zero_add, Nat.one_ne_zero,
      if_false]
    exact ⟨he, trivial, by omega, fun _ => by omega⟩
  · by_cases hf : b.fits u.length u.offset
    · rw [bufferCallback_of_fits hu he hf]
      simp [Port.release, hst, Port.sendFromPool, hq, he]
    · rw [bufferCallback_of_not_fits hu hf]
      simp [Port.release, hst, hq, he]

/-- A stream buffer that is refused is not replaced. -/
theorem sentBack_of_not_fits (hu : p.userdata = some u) (hf : ¬ b.fits u.length u.offset) :
    sentBack b p = 0 := by
  rw [sentBack, bufferCallback_of_not_fits hu hf, Nat.sub_self]

end Invocation

section Capture

variable {length : UInt32} {bs : List BufferHeader} {p : Port}

/-- As long as every stream buffer is taken, the port keeps its buffers and the queue stays
empty. -/
theorem deliver_recycles (data : Nat → UInt8) (hheld : ∀ b ∈ bs, b.isStream → p.sent + p.queue ≠ 0)
    (hfits : ∀ pre b, pre ++ [b] <+: bs → b.isStream → b.fits length (filled length pre)) :
    (deliver bs (p.started data length)).isEnabled ∧
      (deliver bs (p.started data length)).queue = 0 ∧
      (deliver bs (p.started data length)).sent = p.sent + p.queue := by
  rw [started_eq]
  induction bs using List.reverseRecOn with
  | nil => exact ⟨rfl, rfl, rfl⟩
  | append_singleton bs b ih =>
    obtain ⟨he, hq, hsent⟩ := ih (fun c hc => hheld c (List.mem_append_left _ hc))
      (fun pre c hp => hfits pre c (hp.trans (List.prefix_append _ _)))
    rw [deliver_snoc]
    obtain ⟨he', hq', hsent', -⟩ := bufferCallback_recycles (b := b) (deliver_userdata bs rfl) he hq
      fun hst => by
        rw [hsent, received_start_length, received_start_offset]
        exact ⟨hheld b (by simp) hst, hfits bs b List.prefix_rfl hst⟩
    exact ⟨he', hq', hsent'.trans hsent⟩

end Capture

/-- **Every buffer the encoder gives back is replaced exactly when every stream buffer passes the
size check.** A stream buffer comes only where the port holds one. -/
theorem recycles_iff (data : Nat → UInt8) (length : UInt32) (bs : List BufferHeader) (p : Port)
    (hheld : ∀ b ∈ bs, b.isStream → p.sent + p.queue ≠ 0) :
    Recycles bs (p.started data length) ↔
      ∀ pre b, pre ++ [b] <+: bs → b.isStream → b.fits length (filled length pre) := by
  have hrec (pre : List BufferHeader) :
      (deliver pre (p.started data length)).userdata = some (received pre (.start data length)) :=
    deliver_userdata pre (by rw [started_eq])
  constructor
  · intro h pre b hp hst
    by_contra hf
    have hback := (h pre b hp).1 hst
    rw [sentBack_of_not_fits (hrec pre)] at hback
    · exact absurd hback (by decide)
    · rwa [received_start_length, received_start_offset]
  · intro h pre b hp
    obtain ⟨he, hq, hsent⟩ := deliver_recycles (p := p) data
      (fun c hc => hheld c (hp.subset (List.mem_append_left _ hc)))
      (fun q c hq => h q c ((hq.trans (List.prefix_append _ _)).trans hp))
    obtain ⟨-, -, hkeep, hback⟩ := bufferCallback_recycles (b := b) (hrec pre) he hq fun hst => by
      rw [hsent, received_start_length, received_start_offset]
      exact ⟨hheld b (hp.subset (by simp)) hst, h pre b hp hst⟩
    refine ⟨hback, ?_⟩
    rw [deliver_snoc, hkeep, hsent, started_eq]

/-- A buffer of two bytes. -/
def twoBytes : BufferHeader := ⟨0, fun _ => 7, 0, 2, 0⟩

/-- An event. -/
def anEvent : BufferHeader := { twoBytes with cmd := 1 }

theorem recycles_iff_twoBytes :
    Recycles [twoBytes, anEvent, twoBytes] (Port.started (fun _ => 0) 4 ⟨none, false, 3, 0⟩) ↔
      ∀ pre b, pre ++ [b] <+: [twoBytes, anEvent, twoBytes] →
        b.isStream → b.fits 4 (filled 4 pre) :=
  recycles_iff (fun _ => 0) 4 [twoBytes, anEvent, twoBytes] ⟨none, false, 3, 0⟩
    fun _ _ _ => by decide

/-- With room for one byte it is released, and none of the other buffers is sent. -/
theorem not_recycles_twoBytes :
    ¬ Recycles [twoBytes] (Port.started (fun _ => 0) 1 ⟨none, false, 3, 0⟩) := by
  intro h
  exact absurd ((h [] twoBytes List.prefix_rfl).1 rfl) (by decide)

end Camerasp.Camera
