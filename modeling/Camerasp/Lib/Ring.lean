import Mathlib.Data.List.Induction
import Mathlib.Data.Nat.ModEq
import Mathlib.Logic.Function.Basic
import Mathlib.Tactic.Common

/-!
# Rings: the last `N` writes

A `Ring α N` is an array of `N` slots written round and round. `fill ws` is the ring after the
writes `ws`, from an empty one. Write number `i` (from `0`) lands in slot `i % N` and stays there
for the next `N - 1` writes (`fill_slots`); a slot is empty exactly as long as fewer writes than
its number were made (`fill_slots_none_iff`).
-/

namespace Camerasp.Lib

/-- `N` slots and the position of the next write. -/
structure Ring (α : Type*) (N : Nat) where
  slots : Fin N → Option α
  head : Fin N

namespace Ring

variable {α : Type*} {N : Nat} [NeZero N]

/-- No slot written. -/
def empty : Ring α N := ⟨fun _ => none, 0⟩

/-- Write the slot at the head and move on. -/
def push (r : Ring α N) (a : α) : Ring α N where
  slots := Function.update r.slots r.head (some a)
  head := r.head + 1

/-- The ring after the writes `ws`. -/
def fill (ws : List α) : Ring α N := ws.foldl push empty

@[simp] theorem fill_nil : (fill [] : Ring α N) = empty := rfl

theorem fill_snoc (ws : List α) (a : α) : (fill (ws ++ [a]) : Ring α N) = (fill ws).push a := by
  simp only [fill, List.foldl_append, List.foldl_cons, List.foldl_nil]

theorem fill_head (ws : List α) : (fill ws : Ring α N).head = Fin.ofNat N ws.length := by
  induction ws using List.reverseRecOn with
  | nil => rfl
  | append_singleton ws a ih =>
    rw [fill_snoc, List.length_append, List.length_singleton]
    show (fill ws).head + 1 = _
    rw [ih]
    refine Fin.ext ?_
    show (ws.length % N + ((1 : Fin N) : Nat)) % N = (ws.length + 1) % N
    exact (Nat.add_mod _ _ _).symm

/-- Two writes of one turn of the ring land in different slots. -/
theorem ofNat_ne_of_turn {i n : Nat} (hi : i < n) (hn : n < i + N) :
    Fin.ofNat N i ≠ Fin.ofNat N n := by
  intro h
  have hm : i % N = n % N := congrArg Fin.val h
  have hd : N ∣ n - i := (Nat.modEq_iff_dvd' (Nat.le_of_lt hi)).mp hm
  exact absurd (Nat.le_of_dvd (by omega) hd) (by omega)

/-- **A slot holds the last write that landed in it.** -/
theorem fill_slots (ws : List α) (i : Nat) (hi : i < ws.length) (hw : ws.length ≤ i + N) :
    (fill ws : Ring α N).slots (Fin.ofNat N i) = some ws[i] := by
  induction ws using List.reverseRecOn with
  | nil => exact absurd hi (Nat.not_lt_zero i)
  | append_singleton ws a ih =>
    rw [List.length_append, List.length_singleton] at hi hw
    rw [fill_snoc]
    show Function.update (fill ws).slots (fill ws).head (some a) (Fin.ofNat N i) = _
    rw [fill_head]
    rcases Nat.lt_succ_iff_lt_or_eq.mp hi with hlt | rfl
    · rw [Function.update_of_ne (ofNat_ne_of_turn hlt (by omega)), ih hlt (by omega),
        List.getElem_append_left hlt]
    · rw [Function.update_self, List.getElem_concat_length rfl]

/-- A slot is empty until its turn comes. -/
theorem fill_slots_none_iff (ws : List α) (j : Fin N) :
    (fill ws : Ring α N).slots j = none ↔ ws.length ≤ j := by
  induction ws using List.reverseRecOn with
  | nil => simp [empty]
  | append_singleton ws a ih =>
    rw [fill_snoc, List.length_append, List.length_singleton]
    show Function.update (fill ws).slots (fill ws).head (some a) j = none ↔ _
    rw [fill_head]
    by_cases hj : j = Fin.ofNat N ws.length
    · have hle : (j : Nat) ≤ ws.length := by rw [hj]; exact Nat.mod_le _ _
      rw [hj, Function.update_self, ← hj]
      simp only [reduceCtorEq, false_iff]
      omega
    · have hne : ws.length ≠ j := fun h =>
        hj (Fin.ext (by rw [h]; exact (Nat.mod_eq_of_lt j.isLt).symm))
      rw [Function.update_of_ne hj, ih]
      omega

/-- What a slot holds was written. -/
theorem fill_slots_mem {ws : List α} {j : Fin N} {a : α}
    (h : (fill ws : Ring α N).slots j = some a) : a ∈ ws := by
  induction ws using List.reverseRecOn with
  | nil => simp [empty] at h
  | append_singleton ws b ih =>
    rw [fill_snoc] at h
    change Function.update (fill ws).slots (fill ws).head (some b) j = some a at h
    rw [List.mem_append, List.mem_singleton]
    by_cases hj : j = (fill ws).head
    · rw [hj, Function.update_self] at h
      exact .inr (Option.some.inj h).symm
    · rw [Function.update_of_ne hj] at h
      exact .inl (ih h)

end Ring

end Camerasp.Lib
