import Mathlib.Order.Bounds.Basic
import Camerasp.Lib.Loop
import Camerasp.Camera.Device

/-!
# The documented ranges of the settings (`cam_still.hpp`)

The comments on the fields bound the rotation, the brightness, the quality and the three settings
from -100 to 100. `setRotation` gets there by a loop on an `int`, where an overflow would be a
fault: `rotationLoop` is that loop with the check.

Results:
* `rotationLoop_run`: from every `int` the loop ends without an overflow.
* `InRange.apply`: every setter keeps every range.
* `setters_inRange`: so do any calls of the setters; with what `setRotation` stores and
  `commitRotation` sends.
-/

namespace Camerasp.Camera

open Camerasp.Lib (Loop)

/-- `a + b` on `int`; an overflow is a fault. -/
def addInt (a b : Int32) : Option Int32 :=
  if -2 ^ 31 ≤ a.toInt + b.toInt ∧ a.toInt + b.toInt < 2 ^ 31 then some (a + b) else none

/-- `while (rotation < 0) rotation += 360`. -/
def rotationLoop : Loop Int32 where
  guard rotation := rotation < 0
  body rotation := addInt rotation 360

/-- The ranges in the comments on the fields. -/
structure InRange (s : Settings) : Prop where
  rotation : s.rotation.toNat ≤ 359
  brightness : s.brightness.toNat ≤ 100
  quality : s.quality.toNat ≤ 100
  sharpness : -100 ≤ s.sharpness.toInt ∧ s.sharpness.toInt ≤ 100
  contrast : -100 ≤ s.contrast.toInt ∧ s.contrast.toInt ≤ 100
  saturation : -100 ≤ s.saturation.toInt ∧ s.saturation.toInt ≤ 100

/-! ## The loop of `setRotation` -/

theorem addInt_360 {r : Int32} (h : r < 0) : addInt r 360 = some (r + 360) := by
  have hl := r.le_toInt
  have h0 : r.toInt < 0 := Int32.lt_iff_toInt_lt.mp h
  have h360 : (360 : Int32).toInt = 360 := rfl
  rw [addInt, if_pos (by omega)]

theorem raiseRotation_of_neg {r : Int32} (h : r < 0) :
    raiseRotation r = raiseRotation (r + 360) := by
  rw [raiseRotation, if_pos h]

theorem raiseRotation_of_not_neg {r : Int32} (h : ¬ r < 0) : raiseRotation r = r := by
  rw [raiseRotation, if_neg h]

/-- **The loop ends without an overflow**, `INT_MIN` included; a round raises the rotation. -/
theorem rotationLoop_run (r : Int32) {n : Nat} (hn : (-r.toInt).toNat ≤ n) :
    rotationLoop.run n r = some (raiseRotation r) := by
  have step : ∀ t, raiseRotation t = raiseRotation r → rotationLoop.guard t = true →
      ∃ u, rotationLoop.body t = some u ∧ raiseRotation u = raiseRotation r ∧
        (-u.toInt).toNat < (-t.toInt).toNat := by
    intro t hi hg
    have hneg : t < 0 := of_decide_eq_true hg
    have h0 : t.toInt < 0 := Int32.lt_iff_toInt_lt.mp hneg
    refine ⟨t + 360, addInt_360 hneg, ?_, ?_⟩
    · rw [← raiseRotation_of_neg hneg, hi]
    · rw [add360_toInt hneg]
      omega
  obtain ⟨t, ht, hi, hg⟩ := Loop.run_total step rfl hn
  rw [ht, ← hi, raiseRotation_of_not_neg (of_decide_eq_false hg)]

/-- The loop adds a multiple of 360. -/
theorem raiseRotation_emod (r : Int32) : (raiseRotation r).toInt % 360 = r.toInt % 360 := by
  induction r using raiseRotation.induct with
  | case1 r h ih => rw [raiseRotation_of_neg h, ih, add360_toInt h, Int.add_emod_right]
  | case2 r h => rw [raiseRotation_of_not_neg h]

theorem raiseRotation_nonneg (r : Int32) : 0 ≤ (raiseRotation r).toInt := by
  induction r using raiseRotation.induct with
  | case1 r h ih => rw [raiseRotation_of_neg h]; exact ih
  | case2 r h =>
    rw [raiseRotation_of_not_neg h]
    exact Int32.le_iff_toInt_le.mp (Int32.not_lt.mp h)

/-- The rotation before it is stored, an `int`. -/
theorem rotation_toInt (r : Int32) :
    (if raiseRotation r ≥ 360 then raiseRotation r % 360 else raiseRotation r).toInt =
      r.toInt % 360 := by
  have h0 := raiseRotation_nonneg r
  rw [← raiseRotation_emod]
  have h360 : (360 : Int32).toInt = 360 := rfl
  split
  · rw [Int32.toInt_mod, h360, Int.tmod_eq_emod_of_nonneg h0]
  · rename_i h
    have hlt : (raiseRotation r).toInt < 360 := Int32.lt_iff_toInt_lt.mp (Int32.not_le.mp h)
    rw [Int.emod_eq_of_lt h0 hlt]

/-- **`setRotation` stores the residue modulo 360.** -/
theorem setRotation_rotation (s : Settings) (r : Int32) :
    ((s.setRotation r).rotation.toNat : Int) = r.toInt % 360 := by
  have h := rotation_toInt r
  simp only [Settings.setRotation]
  rw [Lib.toNat_toUInt32_emod, h]
  omega

theorem rotationDegrees_toInt {s : Settings} (h : s.rotation.toNat ≤ 359) :
    s.rotationDegrees.toInt = (s.rotation.toNat / 90 : Nat) * 90 := by
  have hdiv : (s.rotation / 90).toNat = s.rotation.toNat / 90 := UInt32.toNat_div _ _
  have hq : (s.rotation / 90).toInt32.toInt = (s.rotation.toNat / 90 : Nat) := by
    rw [Lib.toInt_toInt32 (by omega), hdiv]
  have h90 : (90 : Int32).toInt = 90 := rfl
  rw [Settings.rotationDegrees, Int32.toInt_mul, hq, h90]
  exact Int.bmod_eq_of_le (by omega) (by omega)

/-- **The angle sent is the largest multiple of 90 up to the rotation.** -/
theorem rotationDegrees_isGreatest {s : Settings} (h : s.rotation.toNat ≤ 359) :
    IsGreatest {m : Int | 90 ∣ m ∧ m ≤ s.rotation.toNat} s.rotationDegrees.toInt := by
  rw [rotationDegrees_toInt h]
  refine ⟨⟨⟨_, Int.mul_comm _ _⟩, by omega⟩, ?_⟩
  rintro m ⟨⟨k, rfl⟩, hm⟩
  omega

/-! ## The ranges -/

theorem limit100_toInt (v : Int32) : -100 ≤ (limit100 v).toInt ∧ (limit100 v).toInt ≤ 100 := by
  have h100 : (100 : Int32).toInt = 100 := rfl
  have hn100 : (-100 : Int32).toInt = -100 := rfl
  unfold limit100
  dsimp only
  split
  · rw [if_neg (by decide)]
    omega
  · rename_i hl
    have hl' : ¬ v.toInt < -100 := fun h => hl (Int32.lt_iff_toInt_lt.mpr (by omega))
    split
    · omega
    · rename_i hu
      have hu' : ¬ 100 < v.toInt := fun h => hu (Int32.lt_iff_toInt_lt.mpr (by omega))
      omega

theorem brightness_toNat (v : UInt32) : (if v > 100 then v % 100 else v).toNat ≤ 100 := by
  have h100 : (100 : UInt32).toNat = 100 := rfl
  split
  · rw [UInt32.toNat_mod, h100]
    omega
  · rename_i h
    exact UInt32.le_iff_toNat_le.mp (UInt32.not_lt.mp h)

theorem quality_toNat (v : UInt32) : (if v > 100 then 100 else v).toNat ≤ 100 := by
  split
  · exact Nat.le_of_eq rfl
  · rename_i h
    exact UInt32.le_iff_toNat_le.mp (UInt32.not_lt.mp h)

theorem inRange_default : InRange .default := by
  constructor <;> decide

/-- **A setter keeps every setting in its range**, whatever its argument. -/
theorem InRange.apply {s : Settings} (h : InRange s) (c : Setter) : InRange (s.apply c) := by
  cases c with
  | rotation v =>
    have hv : ((s.setRotation v).rotation.toNat : Int) = v.toInt % 360 := setRotation_rotation s v
    exact { h with rotation := by simp only [Settings.apply]; omega }
  | brightness v => exact { h with brightness := brightness_toNat v }
  | quality v => exact { h with quality := quality_toNat v }
  | sharpness v => exact { h with sharpness := limit100_toInt v }
  | contrast v => exact { h with contrast := limit100_toInt v }
  | saturation v => exact { h with saturation := limit100_toInt v }
  | width v | height v | iso v | encoding v | exposure v | awb v | imageEffect v | metering v
  | horizontalFlip v | verticalFlip v => exact { h with }

/-- The setters do nothing but set. -/
theorem run_set (st : State) (setters : List Setter) :
    ∃ st', machine.run st (setters.map .set) = .ok st' ∧
      st'.settings = setters.foldl Settings.apply st.settings := by
  induction setters generalizing st with
  | nil => exact ⟨st, rfl, rfl⟩
  | cons c setters ih =>
    obtain ⟨st', hr, hs⟩ := ih (set c st)
    exact ⟨st', hr, hs⟩

theorem InRange.foldl {s : Settings} (h : InRange s) (setters : List Setter) :
    InRange (setters.foldl Settings.apply s) := by
  induction setters generalizing s with
  | nil => exact h
  | cons c setters ih => exact ih (h.apply c)

/-- **The settings are in range after any calls of the setters**; `setRotation` ends from every
`int` and stores the residue modulo 360, and `commitRotation` sends the largest multiple of 90 up
to it to the three ports. -/
theorem setters_inRange :
    (∀ setters : List Setter, ∃ st, machine.run State.init (setters.map .set) = .ok st ∧
      InRange st.settings) ∧
    ∀ (s : Settings) (r : Int32),
      (∃ n, ∀ m, n ≤ m → rotationLoop.run m r = some (raiseRotation r)) ∧
      ((s.setRotation r).rotation.toNat : Int) = r.toInt % 360 ∧
      ∃ v : Int32, IsGreatest {m : Int | 90 ∣ m ∧ m ≤ r.toInt % 360} v.toInt ∧
        ∀ (o : Outcomes) (c : Nat) (a : Accepted), commitRotation o (s.setRotation r) c a =
          [0, 1, 2].foldl (fun a i => sendParam o c (.output i) .rotation (.int32 v) a) a := by
  constructor
  · intro setters
    obtain ⟨st, hr, hs⟩ := run_set State.init setters
    refine ⟨st, hr, ?_⟩
    rw [hs]
    exact inRange_default.foldl setters
  · intro s r
    have hres := setRotation_rotation s r
    have hg := rotationDegrees_isGreatest (s := s.setRotation r) (by omega)
    rw [hres] at hg
    exact ⟨⟨_, fun m hm => rotationLoop_run r hm⟩, hres, _, hg, fun o c a => rfl⟩

end Camerasp.Camera
