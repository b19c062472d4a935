import Mathlib.Algebra.Order.Ring.Int
import Mathlib.Tactic.Common

/-!
# 32-bit words as integers

C++ arithmetic on `int` and `unsigned int` read back in `Int`: unsigned operations wrap modulo
`2 ^ 32` (`toNat_sub_emod`), an `int` converts to `unsigned` by its residue
(`toNat_toUInt32_emod`) and a small `unsigned` to the `int` of its value (`toInt_toInt32`), and
signed operations agree with those of `Int` as long as the result is an `int`
(`toInt_add_of_range`, `toInt_sub_of_range`).
-/

namespace Camerasp.Lib

theorem toNat_toUInt32_emod (k : Int32) : (k.toUInt32.toNat : Int) = k.toInt % 2 ^ 32 := by
  have hlt := k.toBitVec.isLt
  rw [← Int32.toNat_toBitVec, ← Int32.toInt_toBitVec, BitVec.toInt_eq_toNat_bmod]
  show _ = Int.bmod _ _ % ((2 ^ 32 : Nat) : Int)
  rw [Int.bmod_emod]
  omega

theorem toNat_sub_emod (a b : UInt32) :
    ((a - b).toNat : Int) = ((a.toNat : Int) - b.toNat) % 2 ^ 32 := by
  have ha := a.toNat_lt
  have hb := b.toNat_lt
  rw [UInt32.toNat_sub]
  omega

theorem toInt_add_of_range {a b : Int32} (hl : -2 ^ 31 ≤ a.toInt + b.toInt)
    (hu : a.toInt + b.toInt < 2 ^ 31) : (a + b).toInt = a.toInt + b.toInt := by
  rw [Int32.toInt_add]
  exact Int.bmod_eq_of_le (by omega) (by omega)

theorem toInt_sub_of_range {a b : Int32} (hl : -2 ^ 31 ≤ a.toInt - b.toInt)
    (hu : a.toInt - b.toInt < 2 ^ 31) : (a - b).toInt = a.toInt - b.toInt := by
  rw [Int32.toInt_sub]
  exact Int.bmod_eq_of_le (by omega) (by omega)

theorem toInt_toInt32 {u : UInt32} (h : u.toNat < 2 ^ 31) : u.toInt32.toInt = u.toNat := by
  have htoInt : u.toInt32.toInt = u.toBitVec.toInt := rfl
  rw [htoInt, BitVec.toInt_eq_toNat_of_lt (by rw [UInt32.toNat_toBitVec]; omega),
    UInt32.toNat_toBitVec]

end Camerasp.Lib
