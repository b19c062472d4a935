import Mathlib.Tactic.Common

/-!
# Strings by position

The part of `std::string` that works with positions and iterators, on lists: a position past the
end is a fault (`none`), and `npos` is a search that finds nothing. The lemmas read a string as
what lies before a position, the part of interest and the rest.
-/

namespace Camerasp.Lib

variable {α : Type*}

/-- The position `i`, which may be the end. -/
def position (s : List α) (i : Nat) : Option Nat := if i ≤ s.length then some i else none

/-- The string between two iterators. -/
def range (s : List α) (first last : Nat) : Option (List α) :=
  if first ≤ last ∧ last ≤ s.length then some ((s.drop first).take (last - first)) else none

/-- `s.substr(pos, n)`. -/
def substr (s : List α) (pos n : Nat) : Option (List α) :=
  if pos ≤ s.length then some ((s.drop pos).take n) else none

/-- `s.find(c, offset)`; `none` is `npos`. -/
def find [DecidableEq α] (c : α) (s : List α) (offset : Nat) : Option Nat :=
  ((s.drop offset).idxOf? c).map (offset + ·)

/-! ## A string in parts -/

variable {s a x t : List α} {n : Nat}

theorem position_of_le (h : n ≤ s.length) : position s n = some n := if_pos h

/-- A part between two iterators. -/
theorem range_part {m : Nat} (hs : s = a ++ (x ++ t)) (hn : n = a.length)
    (hm : m = n + x.length) : range s n m = some x := by
  subst hs hn hm
  have hle : a.length + x.length ≤ (a ++ (x ++ t)).length := by
    simp only [List.length_append]
    omega
  rw [range, if_pos ⟨Nat.le_add_right _ _, hle⟩, List.drop_left, Nat.add_sub_cancel_left,
    List.take_left]

theorem substr_of_le (h : n ≤ s.length) (m : Nat) : substr s n m = some ((s.drop n).take m) :=
  if_pos h

/-- A part from a position on, of a length. -/
theorem substr_part (hs : s = a ++ (x ++ t)) (hn : n = a.length) :
    substr s n x.length = some x := by
  subst hs hn
  have hle : a.length ≤ (a ++ (x ++ t)).length := by
    simp only [List.length_append]
    omega
  rw [substr_of_le hle, List.drop_left, List.take_left]

section Find

variable [DecidableEq α] {c : α}

theorem idxOf?_append_cons (h : c ∉ x) : (x ++ c :: t).idxOf? c = some x.length := by
  induction x with
  | nil => simp [List.idxOf?_cons]
  | cons b x ih =>
    rw [List.mem_cons, not_or] at h
    simp [List.idxOf?_cons, Ne.symm h.1, ih h.2]

/-- **The first occurrence** from a position on. -/
theorem find_part (hs : s = a ++ (x ++ c :: t)) (hn : n = a.length) (h : c ∉ x) :
    find c s n = some (n + x.length) := by
  subst hs hn
  rw [find, List.drop_left, idxOf?_append_cons h, Option.map_some]

/-- **Nothing to find** from a position on. -/
theorem find_npos (hs : s = a ++ x) (hn : n = a.length) (h : c ∉ x) : find c s n = none := by
  subst hs hn
  rw [find, List.drop_left, List.idxOf?_eq_none_iff.mpr h, Option.map_none]

/-- The first occurrence of all. -/
theorem find_first (h : c ∉ x) : find c (x ++ c :: t) 0 = some x.length :=
  (find_part (List.nil_append _).symm rfl h).trans (congrArg some (Nat.zero_add _))

theorem find_nothing (h : c ∉ s) : find c s 0 = none := find_npos (List.nil_append s).symm rfl h

/-- What is found lies behind the offset and before the end. -/
theorem find_bounds {p : Nat} (h : find c s n = some p) : n ≤ p ∧ p < s.length := by
  obtain ⟨i, hi, rfl⟩ := Option.map_eq_some_iff.mp h
  obtain ⟨hlt, -⟩ := List.idxOf?_eq_some_iff.mp hi
  rw [List.length_drop] at hlt
  omega

end Find

end Camerasp.Lib
