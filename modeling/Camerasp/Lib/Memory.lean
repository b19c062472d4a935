import Mathlib.Logic.Function.Basic
import Mathlib.Tactic.Common

/-!
# Byte memory: writing a list, viewing a prefix

A memory is a total function from addresses. `write m o xs` puts the list `xs` at address `o`;
`view m n` is what the first `n` addresses hold. Writing right after a viewed prefix appends
(`view_write`).
-/

namespace Camerasp.Lib

variable {α : Type*}

/-- What the addresses `0, …, n - 1` hold. -/
def view (m : Nat → α) (n : Nat) : List α := (List.range n).map m

/-- `m` with `xs` at the addresses from `o` on. -/
def write (m : Nat → α) : Nat → List α → Nat → α
  | _, [] => m
  | o, x :: xs => write (Function.update m o x) (o + 1) xs

@[simp] theorem view_length (m : Nat → α) (n : Nat) : (view m n).length = n := by
  rw [view, List.length_map, List.length_range]

theorem view_succ (m : Nat → α) (n : Nat) : view m (n + 1) = view m n ++ [m n] := by
  rw [view, List.range_succ, List.map_append]
  rfl

theorem view_congr {m m' : Nat → α} {n : Nat} (h : ∀ j, j < n → m j = m' j) :
    view m n = view m' n :=
  List.map_congr_left fun j hj => h j (List.mem_range.mp hj)

/-- **Writing after a prefix appends to it.** -/
theorem view_write : ∀ (m : Nat → α) (o : Nat) (xs : List α),
    view (write m o xs) (o + xs.length) = view m o ++ xs
  | m, o, [] => (List.append_nil _).symm
  | m, o, x :: xs => by
    have h := view_write (Function.update m o x) (o + 1) xs
    have hv : view (Function.update m o x) o = view m o :=
      view_congr fun j hj => Function.update_of_ne (Nat.ne_of_lt hj) _ _
    rw [view_succ, hv, Function.update_self, List.append_assoc] at h
    rw [List.length_cons, Nat.add_comm xs.length, ← Nat.add_assoc]
    exact h

end Camerasp.Lib
