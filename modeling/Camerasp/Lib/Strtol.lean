import Mathlib.Algebra.Order.Ring.Int
import Mathlib.Data.List.TakeWhile
import Mathlib.Tactic.Common

/-!
# `strtol` and `atoi` in base ten (`<cstdlib>`)

A C string is the text up to the first NUL. `strtol` skips white space, takes an optional sign and
the digits that follow, and returns their value within the limits of a `long` of `bits` bits, with
what it has not taken; without a digit it takes nothing.

Results:
* `strtol_decimal`, `isDecimal_of_strtol`: it takes a whole text exactly when that is a decimal
  integer.
* `atoi_text`: `atoi` inverts the decimal text of an `int`.
-/

namespace Camerasp.Lib

/-- `isspace`, in the "C" locale. -/
def isSpace (c : Char) : Bool := c == ' ' || ('\t' ≤ c && c ≤ '\r')

/-- What `c_str()` shows to C. -/
def cString (s : List Char) : List Char := s.takeWhile (· ≠ '\x00')

/-- An optional sign, and what follows it. -/
def splitSign : List Char → Int × List Char
  | '-' :: s => (-1, s)
  | '+' :: s => (1, s)
  | s => (1, s)

/-- The number that the digits behind an optional sign stand for. -/
def decimalValue (s : List Char) : Int :=
  (splitSign s).1 * Nat.ofDigitChars 10 ((splitSign s).2.takeWhile Char.isDigit) 0

/-- An optional sign and one or more digits. -/
def IsDecimal (s : List Char) : Prop :=
  (splitSign s).2 ≠ [] ∧ ∀ c ∈ (splitSign s).2, c.isDigit

instance (s : List Char) : Decidable (IsDecimal s) :=
  decidable_of_iff ((!(splitSign s).2.isEmpty && (splitSign s).2.all Char.isDigit) = true) (by
    simp [IsDecimal])

/-- The limits of a `long` of `bits` bits. -/
def clampLong (bits : Nat) (n : Int) : Int :=
  max (-2 ^ (bits - 1)) (min n (2 ^ (bits - 1) - 1))

/-- `strtol(s, &p, 10)`: the number, and what is left at `p`. -/
def strtol (bits : Nat) (s : List Char) : Int × List Char :=
  let t := s.dropWhile isSpace
  if ((splitSign t).2.takeWhile Char.isDigit) = [] then (0, s)
  else (clampLong bits (decimalValue t), (splitSign t).2.dropWhile Char.isDigit)

/-- `atoi(s)`: the number as an `int`. -/
def atoi (bits : Nat) (s : List Char) : Int32 := Int32.ofInt (strtol bits (cString s)).1

/-- The decimal text of an integer. -/
def decimalText (n : Int) : List Char :=
  if n < 0 then '-' :: Nat.toDigits 10 n.natAbs else Nat.toDigits 10 n.natAbs

variable {bits : Nat} {s : List Char} {c : Char}

/-! ## Characters -/

theorem isSpace_of_isDigit (h : c.isDigit) : isSpace c = false := by
  simp only [Char.isDigit, Bool.and_eq_true, decide_eq_true_eq] at h
  have hc : c ≠ ' ' := by
    rintro rfl
    exact absurd h (by decide)
  have hr : ¬ c ≤ '\r' := fun hle => absurd (UInt32.le_trans h.1 hle) (by decide)
  simp [isSpace, hc, hr]

theorem splitSign_of_isDigit (h : c.isDigit) : splitSign (c :: s) = (1, c :: s) := by
  unfold splitSign
  split
  · rename_i heq
    cases heq
    exact absurd h (by decide)
  · rename_i heq
    cases heq
    exact absurd h (by decide)
  · rfl

/-- A decimal integer begins with a sign or a digit. -/
theorem IsDecimal.head (h : IsDecimal s) :
    ∃ c t, s = c :: t ∧ (c.isDigit ∨ c = '-' ∨ c = '+') := by
  unfold IsDecimal splitSign at h
  split at h
  · exact ⟨_, _, rfl, .inr (.inl rfl)⟩
  · exact ⟨_, _, rfl, .inr (.inr rfl)⟩
  · obtain ⟨c, t, rfl⟩ := List.exists_cons_of_ne_nil h.1
    exact ⟨c, t, rfl, .inl (h.2 c List.mem_cons_self)⟩

theorem dropWhile_isSpace (h : c.isDigit ∨ c = '-' ∨ c = '+') :
    (c :: s).dropWhile isSpace = c :: s := by
  have hc : isSpace c = false := by
    rcases h with h | rfl | rfl
    · exact isSpace_of_isDigit h
    · rfl
    · rfl
  rw [List.dropWhile_cons, hc]
  rfl

/-! ## `strtol` -/

theorem IsDecimal.takeWhile (h : IsDecimal s) :
    (splitSign s).2.takeWhile Char.isDigit = (splitSign s).2 :=
  List.takeWhile_eq_self_iff.mpr h.2

/-- **A decimal integer is taken whole.** -/
theorem strtol_decimal (h : IsDecimal s) :
    strtol bits s = (clampLong bits (decimalValue s), []) := by
  obtain ⟨c, t, rfl, hc⟩ := h.head
  unfold strtol
  rw [dropWhile_isSpace hc]
  simp only [h.takeWhile, h.1, if_false, List.dropWhile_eq_nil_iff.mpr h.2]

/-- **Nothing else is**, of the texts that begin with a sign or a digit. -/
theorem isDecimal_of_strtol (hc : c.isDigit ∨ c = '-' ∨ c = '+')
    (h : (strtol bits (c :: s)).2 = []) : IsDecimal (c :: s) := by
  unfold strtol at h
  rw [dropWhile_isSpace hc] at h
  dsimp only at h
  split at h
  · cases h
  · rename_i hne
    have hall := List.dropWhile_eq_nil_iff.mp h
    rw [List.takeWhile_eq_self_iff.mpr hall] at hne
    exact ⟨hne, hall⟩

/-! ## `atoi` -/

theorem clampLong_of_int {n : Int} (hb : 32 ≤ bits) (hl : -2 ^ 31 ≤ n) (hu : n < 2 ^ 31) :
    clampLong bits n = n := by
  have hpow : (2 : Int) ^ 31 ≤ 2 ^ (bits - 1) := by
    exact_mod_cast Nat.pow_le_pow_right (by decide : 0 < 2) (by omega : 31 ≤ bits - 1)
  unfold clampLong
  omega

theorem ofInt_toInt_of_int {n : Int} (hl : -2 ^ 31 ≤ n) (hu : n < 2 ^ 31) :
    (Int32.ofInt n).toInt = n := by
  rw [Int32.toInt_ofInt]
  exact Int.bmod_eq_of_le (by simp only [Int32.size]; omega) (by simp only [Int32.size]; omega)

theorem isDigit_toDigits {n : Nat} : ∀ c ∈ Nat.toDigits 10 n, c.isDigit :=
  fun _ => Nat.isDigit_of_mem_toDigits (by decide) (by decide)

theorem splitSign_decimalText (n : Int) :
    splitSign (decimalText n) = (if n < 0 then -1 else 1, Nat.toDigits 10 n.natAbs) := by
  unfold decimalText
  split
  · rfl
  · obtain ⟨c, t, hc⟩ := List.exists_cons_of_ne_nil (Nat.toDigits_ne_nil (n := n.natAbs) (b := 10))
    rw [hc]
    exact splitSign_of_isDigit (isDigit_toDigits c (hc ▸ List.mem_cons_self))

theorem isDecimal_decimalText (n : Int) : IsDecimal (decimalText n) := by
  unfold IsDecimal
  rw [splitSign_decimalText]
  exact ⟨Nat.toDigits_ne_nil, isDigit_toDigits⟩

theorem decimalValue_decimalText (n : Int) : decimalValue (decimalText n) = n := by
  have htake : (Nat.toDigits 10 n.natAbs).takeWhile Char.isDigit = Nat.toDigits 10 n.natAbs :=
    List.takeWhile_eq_self_iff.mpr isDigit_toDigits
  unfold decimalValue
  rw [splitSign_decimalText, htake, Nat.ofDigitChars_ten_toDigits]
  split <;> omega

/-- A decimal integer has no NUL. -/
theorem IsDecimal.cString (h : IsDecimal s) : cString s = s := by
  have hne : ∀ c ∈ s, c ≠ '\x00' := by
    rintro c hc rfl
    have hd := h.2
    unfold splitSign at hd
    split at hd
    · simp only [List.mem_cons, Char.reduceEq, false_or] at hc
      exact absurd (hd _ hc) (by decide)
    · simp only [List.mem_cons, Char.reduceEq, false_or] at hc
      exact absurd (hd _ hc) (by decide)
    · exact absurd (hd _ hc) (by decide)
  exact List.takeWhile_eq_self_iff.mpr fun c hc => decide_eq_true (hne c hc)

/-- **`atoi` inverts the decimal text of an `int`.** -/
theorem atoi_text (hb : 32 ≤ bits) (n : Int32) : atoi bits (decimalText n.toInt) = n := by
  have hd := isDecimal_decimalText n.toInt
  have hl := n.le_toInt
  have hu := n.toInt_lt
  unfold atoi
  rw [hd.cString, strtol_decimal hd, decimalValue_decimalText,
    clampLong_of_int hb (by omega) (by omega)]
  exact Int32.ofInt_toInt n

end Camerasp.Lib
