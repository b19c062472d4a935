import Mathlib.Data.List.Infix
import Mathlib.Tactic.Common

/-!
# Characters, numerals and limits (`via/http/character.hpp`, `character.cpp`)

A byte of a connection is a `Char`; nothing depends on its being below 256. The `<cctype>` tests
are those of the "C" locale.

The limits are the defaults of `request_receiver` (`request.hpp`), which `main` leaves alone;
line ends need not be strict (`strict_crlf_` is false).
-/

namespace Camerasp.Http

def maxWhitespace : Nat := 8
def maxMethodLength : Nat := 8
def maxUriLength : Nat := 1024
def maxLineLength : Nat := 1024
def maxHeaderNumber : Nat := 100
def maxHeaderLength : Nat := 8190
def maxBodySize : Nat := 1048576
def maxChunkSize : Nat := 1048576

/-- `LONG_MAX` where `long` has 32 bits. -/
def longMax : Nat := 2147483647

def isEndOfLine (c : Char) : Bool := c == '\r' || c == '\n'

def isSpaceOrTab (c : Char) : Bool := c == ' ' || c == '\t'

/-- What a method and a field name are made of (RFC 7230, `tchar`). -/
def isTokenChar (c : Char) : Bool := c.isAlphanum || "!#$%&\x27*+-.^_\x60|~".toList.contains c

/-- `std::isxdigit`. -/
def isXDigit (c : Char) : Bool := c.isDigit || ('a' ≤ c && c ≤ 'f') || ('A' ≤ c && c ≤ 'F')

/-- The value of a digit, in any base up to sixteen. -/
def digitValue (c : Char) : Nat :=
  if c.isDigit then c.toNat - '0'.toNat
  else if 'a' ≤ c && c ≤ 'f' then c.toNat - 'a'.toNat + 10
  else c.toNat - 'A'.toNat + 10

/-- The number that digits stand for. -/
def numeral (base : Nat) (s : List Char) : Nat :=
  s.foldl (fun n c => n * base + digitValue c) 0

/-- What `from_hex_string` and `from_dec_string` share: `-1` for anything but digits, for a number
`strtol` cannot give, and for a zero that does not begin with the digit `0`. -/
def fromString (isDigit : Char → Bool) (base : Nat) (s : List Char) : Int :=
  if !s.all isDigit then -1
  else
    let n := numeral base s
    if n > longMax || (n = 0 && s.head? ≠ some '0') then -1 else n

def fromHexString (s : List Char) : Int := fromString isXDigit 16 s

def fromDecString (s : List Char) : Int := fromString Char.isDigit 10 s

theorem fromString_eq {isDigit : Char → Bool} {base : Nat} {s : List Char}
    (hs : ∀ c ∈ s, isDigit c) (hn : numeral base s ≤ longMax)
    (h0 : numeral base s = 0 → s.head? = some '0') :
    fromString isDigit base s = numeral base s := by
  have hall : s.all isDigit = true := List.all_eq_true.mpr hs
  unfold fromString
  simp only [hall, Bool.not_true, Bool.false_eq_true, if_false]
  rw [if_neg]
  simp only [Bool.or_eq_true, Bool.and_eq_true, decide_eq_true_eq, not_or, not_and]
  exact ⟨by omega, fun h => by simp [h0 h]⟩

/-- `std::transform` with `tolower`. -/
def lower (s : List Char) : List Char := s.map Char.toLower

/-- `s.find(t) != npos`. -/
def contains (s t : List Char) : Bool := decide (t <:+: s)

/-! ## Which characters are which -/

theorem isEndOfLine_iff {c : Char} : isEndOfLine c ↔ c = '\r' ∨ c = '\n' := by
  simp [isEndOfLine]

theorem isSpaceOrTab_iff {c : Char} : isSpaceOrTab c ↔ c = ' ' ∨ c = '\t' := by
  simp [isSpaceOrTab]

theorem ne_of_isTokenChar {c d : Char} (h : isTokenChar c) (hd : isTokenChar d = false) :
    c ≠ d := by
  rintro rfl
  rw [hd] at h
  cases h

theorem isTokenChar_not_blank {c : Char} (h : isTokenChar c) : isSpaceOrTab c = false := by
  by_contra hc
  rw [Bool.not_eq_false, isSpaceOrTab_iff] at hc
  rcases hc with rfl | rfl <;> exact absurd h (by decide)

theorem isTokenChar_not_end {c : Char} (h : isTokenChar c) : isEndOfLine c = false := by
  by_contra hc
  rw [Bool.not_eq_false, isEndOfLine_iff] at hc
  rcases hc with rfl | rfl <;> exact absurd h (by decide)

theorem isTokenChar_of_letter {c : Char} (h : (c.isAlpha || c = '-') = true) : isTokenChar c := by
  rw [Bool.or_eq_true, decide_eq_true_eq] at h
  rcases h with h | rfl
  · simp [isTokenChar, Char.isAlphanum, h]
  · decide

theorem isXDigit_not_blank {c : Char} (h : isXDigit c) : isSpaceOrTab c = false := by
  by_contra hc
  rw [Bool.not_eq_false, isSpaceOrTab_iff] at hc
  rcases hc with rfl | rfl <;> exact absurd h (by decide)

/-! ## Numerals -/

theorem digitValue_eq_zero {c : Char} (h : digitValue c = 0) : c = '0' := by
  unfold digitValue at h
  split at h
  · rename_i hd
    have hle : '0'.toNat ≤ c.toNat := by
      simp only [Char.isDigit, Bool.and_eq_true, decide_eq_true_eq] at hd
      exact hd.1
    have heq : c.toNat = '0'.toNat := by omega
    exact Char.toNat_inj.mp heq
  · split at h
    · exact absurd h (Nat.succ_ne_zero _)
    · exact absurd h (Nat.succ_ne_zero _)

theorem le_numeral {base : Nat} (hb : 0 < base) (c : Char) (s : List Char) :
    digitValue c ≤ numeral base (c :: s) := by
  have hfold : ∀ n, n ≤ s.foldl (fun n c => n * base + digitValue c) n := by
    induction s with
    | nil => intro n; exact le_rfl
    | cons d s ih =>
      intro n
      have hstep : n ≤ n * base + digitValue d :=
        (Nat.le_mul_of_pos_right n hb).trans (Nat.le_add_right _ _)
      exact hstep.trans (ih _)
  simpa [numeral] using hfold (digitValue c)

/-- A zero made of digits begins with the digit `0`. -/
theorem head_of_numeral_eq_zero {base : Nat} (hb : 0 < base) {s : List Char} (hs : s ≠ [])
    (h0 : numeral base s = 0) : s.head? = some '0' := by
  cases s with
  | nil => exact absurd rfl hs
  | cons c s =>
    have hle := le_numeral hb c s
    rw [h0] at hle
    rw [List.head?_cons, digitValue_eq_zero (Nat.le_zero.mp hle)]

theorem fromHexString_eq {s : List Char} (hs : s ≠ []) (hx : ∀ c ∈ s, isXDigit c)
    (hn : numeral 16 s ≤ longMax) : fromHexString s = numeral 16 s :=
  fromString_eq hx hn (head_of_numeral_eq_zero (by simp) hs)

theorem fromString_cases (isDigit : Char → Bool) (base : Nat) (s : List Char) :
    fromString isDigit base s = -1 ∨
      s.all isDigit ∧ fromString isDigit base s = numeral base s := by
  unfold fromString
  cases hall : s.all isDigit
  · exact .inl rfl
  · simp only [Bool.not_true, Bool.false_eq_true, if_false, true_and]
    split
    · exact .inl rfl
    · exact .inr rfl

theorem fromDecString_eq {s : List Char} (hs : s ≠ []) (hd : ∀ c ∈ s, c.isDigit)
    (hn : numeral 10 s ≤ longMax) : fromDecString s = numeral 10 s :=
  fromString_eq hd hn (head_of_numeral_eq_zero (by simp) hs)

end Camerasp.Http
