import Camerasp.Camera.Frame

/-!
# Where the copied bytes go

`buffer_callback` compares `buffer->length + userdata->offset` with `userdata->length` in 32 bits.
The offset stays within the destination whatever comes (`filled_le`), and a buffer that is refused
changes nothing. The bytes stay within it too as long as the sum does not wrap for a buffer that
is taken: `withinBounds_iff`. One that wraps is copied over the destination's end.
-/

namespace Camerasp.Camera

/-- What is asked of one invocation on the record `u` that leaves `u'`: `data` is the destination
before the capture, with whatever it holds, so a byte that stays the same for every `data` is a
byte that is not written. -/
structure Contained (data : Nat → UInt8) (length : UInt32) (b : BufferHeader) (u u' : UserData) :
    Prop where
  offset : u'.offset ≤ length
  beyond : ∀ j, length.toNat ≤ j → u'.data j = data j
  refused : ¬ b.fits length u.offset → u'.offset = u.offset ∧ u'.data = u.data

/-- Every invocation of `buffer_callback` on the buffers is contained, from offset `0` on. -/
def WithinBounds (length : UInt32) (bs : List BufferHeader) (p : Port) : Prop :=
  ∀ data pre b, pre ++ [b] <+: bs → ∀ u u',
    (deliver pre { p with userdata := some (.start data length) }).userdata = some u →
    (deliver (pre ++ [b]) { p with userdata := some (.start data length) }).userdata = some u' →
    Contained data length b u u'

/-- The sum of the size check does not wrap for a buffer that passes it. -/
def NoWrap (length : UInt32) (bs : List BufferHeader) : Prop :=
  ∀ pre b, pre ++ [b] <+: bs → b.fits length (filled length pre) →
    (filled length pre).toNat + b.length.toNat < 2 ^ 32

/-! ## The copy loop's stores -/

/-- The loop stores at the indices that follow the offset, in 32 bits, and nowhere else. -/
theorem copyLoop_data_of_ne (b : BufferHeader) : ∀ (n i : Nat) (u : UserData) {j : Nat},
    (∀ k, k < n → (u.offset + UInt32.ofNat k).toNat ≠ j) →
      (copyLoop b n i u).data j = u.data j
  | 0, _, _, _, _ => rfl
  | n + 1, i, u, j, h => by
    have h0 : j ≠ u.offset.toNat := by
      have := h 0 (Nat.succ_pos n)
      rw [show UInt32.ofNat 0 = 0 from rfl, UInt32.add_zero] at this
      exact this.symm
    rw [copyLoop, copyLoop_data_of_ne b n (i + 1) _ fun k hk => ?_]
    · exact Function.update_of_ne h0 _ _
    · have hk' := h (k + 1) (Nat.succ_lt_succ hk)
      rw [UInt32.ofNat_add, UInt32.add_comm (UInt32.ofNat k), ← UInt32.add_assoc] at hk'
      exact hk'

/-- What it stores does not depend on what was there. -/
theorem copyLoop_data_congr (b : BufferHeader) : ∀ (n i : Nat) (u u' : UserData) {j : Nat},
    u.offset = u'.offset →
      (u.data j = u'.data j ∨ ∃ k, k < n ∧ (u.offset + UInt32.ofNat k).toNat = j) →
        (copyLoop b n i u).data j = (copyLoop b n i u').data j
  | 0, _, _, _, _, _, h => h.resolve_right fun ⟨_, hk, _⟩ => absurd hk (Nat.not_lt_zero _)
  | n + 1, i, u, u', j, ho, h => by
    refine copyLoop_data_congr b n (i + 1) _ _ (congrArg (· + 1) ho) ?_
    by_cases hj : j = u.offset.toNat
    · refine .inl ?_
      show Function.update u.data u.offset.toNat _ j = Function.update u'.data u'.offset.toNat _ j
      rw [← ho, hj, Function.update_self, Function.update_self]
    · rcases h with h | ⟨k, hk, hkj⟩
      · refine .inl ?_
        show Function.update u.data u.offset.toNat _ j = Function.update u'.data u'.offset.toNat _ j
        rw [← ho, Function.update_of_ne hj, Function.update_of_ne hj, h]
      · cases k with
        | zero =>
          rw [show UInt32.ofNat 0 = 0 from rfl, UInt32.add_zero] at hkj
          exact absurd hkj.symm hj
        | succ k =>
          rw [UInt32.ofNat_add, UInt32.add_comm (UInt32.ofNat k), ← UInt32.add_assoc] at hkj
          exact .inr ⟨k, Nat.lt_of_succ_lt_succ hk, hkj⟩

section Invocations

variable {length : UInt32}

/-- A buffer that is taken without a wrap ends within the destination. -/
theorem fits_end {b : BufferHeader} {o : UInt32} (hf : b.fits length o)
    (hw : o.toNat + b.length.toNat < 2 ^ 32) : o.toNat + b.length.toNat ≤ length.toNat := by
  rw [fits_iff, Nat.mod_eq_of_lt (by omega)] at hf
  omega

/-- One buffer that does not wrap stores nothing at `length` or beyond. -/
theorem take_data_of_le {u : UserData} {b : BufferHeader} {j : Nat}
    (hw : b.fits u.length u.offset → u.offset.toNat + b.length.toNat < 2 ^ 32)
    (hj : u.length.toNat ≤ j) : (u.take b).data j = u.data j := by
  unfold UserData.take
  split_ifs with hf
  · have hend := fits_end hf (hw hf)
    have hlen := u.length.toNat_lt
    rw [post_eq]
    refine copyLoop_data_of_ne b _ 0 u fun k hk => ?_
    have hkn : (UInt32.ofNat k).toNat = k := by
      rw [UInt32.toNat_ofNat']
      exact Nat.mod_eq_of_lt (show k < 2 ^ 32 by omega)
    rw [UInt32.toNat_add, hkn, Nat.mod_eq_of_lt (by omega)]
    omega
  · rfl

/-- Without a wrap nothing is written at `length` or beyond. -/
theorem NoWrap.beyond {bs : List BufferHeader} (h : NoWrap length bs) (data : Nat → UInt8)
    {j : Nat} (hj : length.toNat ≤ j) : (received bs (.start data length)).data j = data j := by
  induction bs using List.reverseRecOn with
  | nil => rfl
  | append_singleton bs b ih =>
    have hbs : NoWrap length bs := fun pre c hp => h pre c (hp.trans (List.prefix_append _ _))
    rw [received_snoc, take_data_of_le, ih hbs]
    · rw [received_start_length, received_start_offset]
      exact h bs b List.prefix_rfl
    · rwa [received_start_length]

/-- **A buffer that wraps and is taken** is stored over the end of the destination: what is there
afterwards does not depend on what was there. -/
theorem take_data_congr (u u' : UserData) {b : BufferHeader} (ho : u.offset = u'.offset)
    (hl : u.length = u'.length) (hle : u.offset ≤ u.length) (hf : b.fits u.length u.offset)
    (hw : 2 ^ 32 ≤ u.offset.toNat + b.length.toNat) :
    (u.take b).data u.length.toNat = (u'.take b).data u.length.toNat := by
  unfold UserData.take
  rw [if_pos hf, if_pos (by rw [← ho, ← hl]; exact hf), post_eq, post_eq]
  rw [UInt32.le_iff_toNat_le] at hle
  have hlen := u.length.toNat_lt
  refine copyLoop_data_congr b _ 0 u u' ho (.inr ⟨u.length.toNat - u.offset.toNat, ?_, ?_⟩)
  · omega
  · rw [UInt32.toNat_add, UInt32.toNat_ofNat']
    show (u.offset.toNat + (u.length.toNat - u.offset.toNat) % 2 ^ 32) % 2 ^ 32 = u.length.toNat
    omega

theorem not_withinBounds {bs pre : List BufferHeader} {b : BufferHeader} (p : Port)
    (hp : pre ++ [b] <+: bs) (hf : b.fits length (filled length pre))
    (hw : 2 ^ 32 ≤ (filled length pre).toNat + b.length.toNat) : ¬ WithinBounds length bs p := by
  intro h
  -- Two destinations that differ at `length` end up the same there.
  have hd (data : Nat → UInt8) :
      (received (pre ++ [b]) (.start data length)).data length.toNat = data length.toNat :=
    (h data pre b hp _ _ (deliver_userdata pre rfl) (deliver_userdata (pre ++ [b]) rfl)).beyond _
      (Nat.le_refl _)
  have hsame := take_data_congr (b := b) (received pre (.start (fun _ => 0) length))
    (received pre (.start (fun _ => 1) length))
    (by rw [received_start_offset, received_start_offset])
    (by rw [received_start_length, received_start_length])
    (by
      rw [received_start_offset, received_start_length, UInt32.le_iff_toNat_le]
      exact filled_le length pre)
    (by rw [received_start_offset, received_start_length]; exact hf)
    (by rw [received_start_offset]; exact hw)
  rw [received_start_length, ← received_snoc, ← received_snoc, hd, hd] at hsame
  exact absurd hsame (by decide)

end Invocations

/-- **Every invocation keeps within the destination exactly when the sum of the size check wraps
for no buffer that is taken.** -/
theorem withinBounds_iff (length : UInt32) (bs : List BufferHeader) (p : Port) :
    WithinBounds length bs p ↔ NoWrap length bs := by
  constructor
  · intro h pre b hp hf
    by_contra hw
    exact not_withinBounds p hp hf (Nat.le_of_not_lt hw) h
  · intro h data pre b hp u u' hu hu'
    rw [deliver_userdata pre rfl] at hu
    rw [deliver_userdata (pre ++ [b]) rfl] at hu'
    obtain rfl := Option.some.inj hu
    obtain rfl := Option.some.inj hu'
    refine ⟨?_, fun j hj => ?_, fun hf => ?_⟩
    · rw [received_start_offset, UInt32.le_iff_toNat_le]
      exact filled_le length (pre ++ [b])
    · exact NoWrap.beyond (fun q c hq => h q c (hq.trans hp)) data hj
    · rw [received_start_offset] at hf
      have hno : (received pre (.start data length)).take b = received pre (.start data length) := by
        rw [UserData.take, received_start_length, received_start_offset, if_neg hf]
      rw [received_snoc, hno]
      exact ⟨rfl, rfl⟩

/-- A first buffer of one byte. -/
def oneByte : BufferHeader := ⟨0, fun _ => 7, 0, 1, 0⟩

/-- A buffer whose length brings the sum round to `0`. -/
def roundTheWord : BufferHeader := ⟨0, fun _ => 7, 0, 0xFFFFFFFF, 0⟩

/-- With room for one byte, the second buffer passes the size check. -/
theorem not_withinBounds_wrap :
    ¬ WithinBounds 1 [oneByte, roundTheWord] ⟨none, true, 0, 2⟩ :=
  @not_withinBounds 1 [oneByte, roundTheWord] [oneByte] roundTheWord _ List.prefix_rfl (by decide)
    (by decide)

end Camerasp.Camera
