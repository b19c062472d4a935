import Camerasp.Lib.Ring
import Camerasp.Lib.Word
import Camerasp.Timer.Model

/-!
# Which capture `getImage` serves

After any run the ring of `timer.cpp` is the `Lib.Ring` of its completed captures (`Refines`,
`refines_of_run`). Reading `getImage`'s index against it gives the capture served for every `k`.
The subtraction `curImg - 1 - k` is unsigned, and `2 ^ 32` is `96` modulo `maxSize`: where it
wraps, the slot is four off (`readIndex_wrapped`).

Results:
* `getImage_previous_iff`: for `0 ≤ k < min n 100`, after `n` captures, the image served is the
  `k`-th previous one exactly when `k < n % 100`, or when the image stored four captures
  further round happens to be the same.
* `readSlot_filled_iff`: for every `int`, after `n ≥ 1` captures, exactly when the slot read has
  been filled. The exceptions are `k = currentCount` and some negative `k`.
-/

namespace Camerasp.Timer

open Camerasp.Lib

variable {γ : Type*} {cfg : Config} {grabPicture : γ → Buffer}

/-! ## The ring of the completed captures -/

/-- The state's ring is the one its completed captures fill, and `currentCount` counts them up to
`maxSize`. -/
structure Refines (st : State) (os : List (Option (Shot γ))) : Prop where
  next : st.next = (Ring.fill (shots os)).head
  count : st.currentCount.toInt = min ((shots os).length : Int) 100
  slots : ∀ j, st.imagebuffers j = (((Ring.fill (shots os)).slots j).map Shot.buffer).getD []
  turn : ∀ i (hi : i < (shots os).length), (shots os)[i].slot = Fin.ofNat 100 i

theorem refines_init : Refines State.init ([] : List (Option (Shot γ))) :=
  ⟨rfl, rfl, fun _ => rfl, fun _ hi => absurd hi (Nat.not_lt_zero _)⟩

theorem SameRing.next {st st' : State} (h : SameRing st st') : st'.next = st.next :=
  Fin.ext (congrArg UInt32.toNat h.curImg)

theorem Refines.sameRing {st st' : State} {os : List (Option (Shot γ))} (hr : Refines st os)
    (h : SameRing st st') : Refines st' (os ++ [none]) where
  next := by rw [shots_append_none, h.next, hr.next]
  count := by rw [shots_append_none, h.currentCount, hr.count]
  slots j := by rw [shots_append_none, h.imagebuffers, hr.slots]
  turn := by rw [shots_append_none]; exact hr.turn

theorem Captured.next {st st' : State} {s : Shot γ} (h : Captured grabPicture st st' s) :
    st'.next = st.next + 1 := by
  have hlt : st.curImg.toNat < 100 := st.next.isLt
  refine Fin.ext ?_
  show st'.curImg.toNat = _
  rw [h.curImg, UInt32.toNat_mod, UInt32.toNat_add, Fin.val_add]
  show (st.curImg.toNat + 1) % 2 ^ 32 % 100 = (st.curImg.toNat + 1) % 100
  omega

/-- `currentCount < maxSize` compares as `unsigned int`. -/
theorem lt_maxSize_iff {c : Int32} (h : 0 ≤ c.toInt) : c.toUInt32 < maxSize ↔ c.toInt < 100 := by
  have hu : (c.toUInt32.toNat : Int) = c.toInt := by
    have := c.toInt_lt
    rw [toNat_toUInt32_emod]
    omega
  rw [UInt32.lt_iff_toNat_lt, ← hu]
  exact Int.ofNat_lt.symm

/-- The guarded increment counts up to `maxSize` and stays there. -/
theorem count_step {c : Int32} {n : Int} (h0 : 0 ≤ n) (h : c.toInt = min n 100) :
    (if c.toUInt32 < maxSize then c + 1 else c).toInt = min (n + 1) 100 := by
  have hlt := lt_maxSize_iff (show 0 ≤ c.toInt by omega)
  have h1 : (1 : Int32).toInt = 1 := rfl
  by_cases hc : c.toInt < 100
  · rw [if_pos (hlt.mpr hc), toInt_add_of_range (by omega) (by omega)]
    omega
  · rw [if_neg (hlt.not.mpr hc)]
    omega

theorem Refines.captured {st st' : State} {os : List (Option (Shot γ))} {s : Shot γ}
    (hr : Refines st os) (h : Captured grabPicture st st' s) : Refines st' (os ++ [some s]) where
  next := by
    rw [shots_append_some, Ring.fill_snoc, h.next, hr.next]
    rfl
  count := by
    rw [shots_append_some, List.length_append, h.currentCount]
    exact count_step (Int.natCast_nonneg _) hr.count
  slots j := by
    rw [shots_append_some, Ring.fill_snoc, h.imagebuffers]
    show _ = ((Function.update (Ring.fill (shots os)).slots (Ring.fill (shots os)).head
      (some s) j).map Shot.buffer).getD []
    rw [← hr.next]
    by_cases hj : j = st.next
    · rw [hj, Function.update_self, Function.update_self]
      rfl
    · rw [Function.update_of_ne hj, Function.update_of_ne hj, hr.slots]
  turn i hi := by
    simp only [shots_append_some, List.length_append, List.length_singleton] at hi ⊢
    rcases Nat.lt_succ_iff_lt_or_eq.mp hi with hlt | rfl
    · rw [List.getElem_append_left hlt, hr.turn i hlt]
    · rw [List.getElem_concat_length rfl, h.slot, hr.next, Ring.fill_head]

/-- **After every run the ring is the one the completed captures fill.** -/
theorem refines_of_run {es : List (Event γ)} {st : State}
    (h : (machine cfg grabPicture).run State.init es = .ok st) :
    Refines st (history cfg grabPicture es) := by
  refine Machine.run_log_invariant (I := Refines) ?_ refines_init h
  intro st os e st' o hr he
  rcases exec_cases he with ⟨rfl, hs⟩ | ⟨_, _, s, -, rfl, -, hc⟩
  · exact hr.sameRing hs
  · exact hr.captured hc

/-! ## The slot read -/

section Index

variable {st : State} {os : List (Option (Shot γ))}

/-- The clamp applies while the ring is filling, to requests beyond `currentCount`. -/
theorem Refines.clamp (hr : Refines st os) (k : Int32) :
    (clamp st k).toInt =
      if (shots os).length < k.toInt ∧ (shots os).length < 100 then ((shots os).length : Int) - 1
      else k.toInt := by
  have hc := hr.count
  have hlt := lt_maxSize_iff (show 0 ≤ st.currentCount.toInt by omega)
  have h1 : (1 : Int32).toInt = 1 := rfl
  unfold Timer.clamp
  simp only [gt_iff_lt, Int32.lt_iff_toInt_lt, hlt]
  split_ifs with h h' h'
  · rw [toInt_sub_of_range (by omega) (by omega)]
    omega
  · exact absurd (by omega) h'
  · exact absurd (by omega) h
  · rfl

/-- `2 ^ 32` is `96` modulo `maxSize`: a wrapped difference is off by `-4`. -/
theorem wrap_emod {x : Int} (hl : -2 ^ 32 ≤ x) (hu : x < 2 ^ 32) :
    x % 2 ^ 32 % 100 = if x < 0 then (x - 4) % 100 else x % 100 := by
  split_ifs with h <;> omega

theorem Refines.readIndex (hr : Refines st os) (k : Int32) :
    ((readIndex st k).toNat : Int) =
      (((shots os).length % 100 : Int) - 1 - (Timer.clamp st k).toInt) % 2 ^ 32 % 100 := by
  have hn : (st.curImg.toNat : Int) = (shots os).length % 100 := by
    have h := congrArg Fin.val hr.next
    rw [Ring.fill_head] at h
    exact congrArg Int.ofNat h
  have h1 : (1 : UInt32).toNat = 1 := rfl
  unfold Timer.readIndex
  rw [UInt32.toNat_mod, Int.natCast_mod, toNat_sub_emod, toNat_sub_emod, hn, h1,
    toNat_toUInt32_emod (Timer.clamp st k)]
  show _ % 2 ^ 32 % 100 = _
  omega

/-- How many captures back `getImage` really reads, for a request in range: `k` itself, or four
more round the ring where the subtraction wraps. -/
def age (n k : Nat) : Nat := if k < n % 100 then k else (k + 4) % 100

theorem age_lt {n k : Nat} (hk : k < n) (hk' : k < 100) : age n k < n ∧ age n k < 100 := by
  unfold age
  split_ifs with h <;> omega

theorem Refines.readSlot (hr : Refines st os) {k : Int32} {m : Nat} (hm : k.toInt = m)
    (hk : m < (shots os).length) (hk' : m < 100) :
    readSlot st k = Fin.ofNat 100 ((shots os).length - 1 - age (shots os).length m) := by
  have hi := hr.readIndex k
  have hc : (Timer.clamp st k).toInt = m := by
    rw [hr.clamp, if_neg (by omega), hm]
  rw [hc] at hi
  refine Fin.ext ?_
  show (Timer.readIndex st k).toNat = _ % 100
  unfold age
  split_ifs with h <;> omega

/-! ## The image served -/

theorem previous_eq {os : List (Option (Shot γ))} {m : Nat} (hm : m < (shots os).length) :
    previous os m = some ((shots os)[(shots os).length - 1 - m].buffer) := by
  have hm' : m < (images os).length := (images_length os).symm ▸ hm
  unfold previous
  rw [List.getElem?_reverse hm', images_length, images, List.getElem?_map,
    List.getElem?_eq_getElem (by omega)]
  rfl

/-- A request in range is served the capture `age` back. -/
theorem Refines.getImage (hr : Refines st os) {k : Int32} {m : Nat} (hm : k.toInt = m)
    (hk : m < (shots os).length) (hk' : m < 100) :
    some (getImage st k) = previous os (age (shots os).length m) := by
  obtain ⟨ha, ha'⟩ := age_lt hk hk'
  unfold Timer.getImage
  rw [previous_eq ha, hr.slots, hr.readSlot hm hk hk',
    Ring.fill_slots _ _ (by omega) (by omega)]
  rfl

/-- Some completed capture has stored into the slot. -/
def Filled (os : List (Option (Shot γ))) (slot : Nat) : Prop :=
  ∃ s ∈ shots os, s.slot.val = slot

instance (os : List (Option (Shot γ))) (slot : Nat) : Decidable (Filled os slot) :=
  inferInstanceAs (Decidable (∃ s ∈ shots os, s.slot.val = slot))

/-- The slots are filled in order, once round. -/
theorem Refines.filled_iff (hr : Refines st os) {slot : Nat} (hs : slot < 100) :
    Filled os slot ↔ slot < (shots os).length := by
  constructor
  · rintro ⟨s, hmem, rfl⟩
    obtain ⟨i, hi, rfl⟩ := List.mem_iff_getElem.mp hmem
    rw [hr.turn i hi]
    exact Nat.lt_of_le_of_lt (Nat.mod_le i 100) hi
  · intro h
    refine ⟨(shots os)[slot], List.getElem_mem h, ?_⟩
    rw [hr.turn slot h]
    exact Nat.mod_eq_of_lt hs

end Index

/-- **Exactly when `getImage` serves the `k`-th previous image.** The index does not wrap, or the
capture four further round stored the same bytes. -/
theorem getImage_previous_iff {es : List (Event γ)} {st : State} {n : Nat} {k : Int32}
    (h : (machine cfg grabPicture).run State.init es = .ok st)
    (hn : (images (history cfg grabPicture es)).length = n) (h0 : 0 ≤ k.toInt)
    (hk : k.toInt < min (n : Int) 100) :
    some (getImage st k) = previous (history cfg grabPicture es) k.toInt.toNat ↔
      k.toInt < n % 100 ∨
        previous (history cfg grabPicture es) ((k.toInt.toNat + 4) % 100) =
          previous (history cfg grabPicture es) k.toInt.toNat := by
  have hr := refines_of_run h
  obtain ⟨m, hm⟩ := Int.eq_ofNat_of_zero_le h0
  rw [images_length] at hn
  rw [hr.getImage hm (by omega) (by omega), hn, hm, Int.toNat_natCast]
  unfold age
  split_ifs with hlt
  · exact ⟨fun _ => .inl (by omega), fun _ => rfl⟩
  · exact ⟨.inr, fun h => h.resolve_left (by omega)⟩

theorem getImage_previous_two :
    ∃ st, (machine ⟨30, 100, "img"⟩ id).run State.init [.timeout 30 [1], .timeout 60 [2]] = .ok st ∧
      (some (getImage st 1) =
          previous (history ⟨30, 100, "img"⟩ id [.timeout 30 [1], .timeout 60 [2]]) 1 ↔
        (1 : Int) < (2 : Nat) % 100 ∨
          previous (history ⟨30, 100, "img"⟩ id [.timeout 30 [1], .timeout 60 [2]]) 5 =
            previous (history ⟨30, 100, "img"⟩ id [.timeout 30 [1], .timeout 60 [2]]) 1) :=
  ⟨_, rfl, getImage_previous_iff rfl rfl (by decide) (by decide)⟩

/-- A hundred captures, the `i`-th of one byte `i`. -/
def fullTurn : List (Event Buffer) :=
  (List.range 100).map fun (i : Nat) => .timeout i [UInt8.ofNat i]

/-- After a full turn a request for the newest image is served the fifth newest. -/
theorem getImage_fullTurn :
    ((machine ⟨30, 100, "img"⟩ id).run State.init fullTurn).map (getImage · 0) = .ok [95] ∧
      (images (history ⟨30, 100, "img"⟩ id fullTurn)).length = 100 ∧
      previous (history ⟨30, 100, "img"⟩ id fullTurn) 0 = some [99] := by
  decide +kernel

/-- **Exactly when the slot read has been filled**, for every `int`, after at least one capture. -/
theorem readIndex_filled_iff {es : List (Event γ)} {st : State} {n : Nat}
    (h : (machine cfg grabPicture).run State.init es = .ok st)
    (hn : (images (history cfg grabPicture es)).length = n) (hpos : 1 ≤ n) (k : Int32) :
    (readIndex st k).toNat < 100 ∧
        Filled (history cfg grabPicture es) (readIndex st k).toNat ↔
      100 ≤ n ∨ 0 ≤ k.toInt ∧ k.toInt ≠ n ∨ k.toInt = n ∧ 96 ≤ n ∨
        k.toInt < 0 ∧ (-k.toInt % 100 = 0 ∨ 100 < n + -k.toInt % 100) := by
  have hr := refines_of_run h
  have hlt : (readIndex st k).toNat < 100 := (readSlot st k).isLt
  have hi := hr.readIndex k
  have hl := k.le_toInt
  have hu := k.toInt_lt
  rw [images_length] at hn
  rw [hr.clamp, hn, wrap_emod (by split_ifs <;> omega) (by split_ifs <;> omega)] at hi
  rw [hr.filled_iff hlt, hn]
  generalize k.toInt = k at *
  generalize (readIndex st _).toNat = i at *
  split_ifs at hi <;> omega

/-- After three captures: past the newest image and a whole turn back, then before the first one and
one before the newest. -/
theorem readIndex_filled_three :
    ∃ st, (machine ⟨30, 100, "img"⟩ id).run State.init
        [.timeout 30 [7], .timeout 60 [8], .timeout 90 [9]] = .ok st ∧
      (∀ k ∈ [(4 : Int32), -98], (readIndex st k).toNat < 100 ∧
        Filled (history ⟨30, 100, "img"⟩ id [.timeout 30 [7], .timeout 60 [8], .timeout 90 [9]])
          (readIndex st k).toNat) ∧
      ∀ k ∈ [(3 : Int32), -2], ¬ ((readIndex st k).toNat < 100 ∧
        Filled (history ⟨30, 100, "img"⟩ id [.timeout 30 [7], .timeout 60 [8], .timeout 90 [9]])
          (readIndex st k).toNat) := by
  refine ⟨_, rfl, fun k hk => ?_, fun k hk => ?_⟩
  · refine (readIndex_filled_iff rfl rfl (by decide) k).mpr ?_
    simp only [List.mem_cons, List.not_mem_nil, or_false] at hk
    rcases hk with rfl | rfl <;> decide
  · refine mt (readIndex_filled_iff rfl rfl (by decide) k).mp ?_
    simp only [List.mem_cons, List.not_mem_nil, or_false] at hk
    rcases hk with rfl | rfl <;> decide

/-- After one capture a request for image `1` reads slot `95`, which nothing has filled. -/
theorem readIndex_unfilled :
    ∃ st, (machine ⟨30, 100, "img"⟩ id).run State.init [.timeout 30 [7]] = .ok st ∧
      (readIndex st 1).toNat = 95 ∧ getImage st 1 = [] ∧
      ¬ Filled (history ⟨30, 100, "img"⟩ id [.timeout 30 [7]]) 95 :=
  ⟨_, rfl, by decide, by decide, by decide⟩

end Camerasp.Timer
