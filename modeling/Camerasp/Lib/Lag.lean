import Mathlib.Algebra.Order.Group.Basic
import Mathlib.Combinatorics.Pigeonhole
import Mathlib.Order.Interval.Finset.Nat
import Mathlib.Tactic.Common

/-!
# Lists that grow by a fixed amount over a fixed distance

In a list that is `Lagged k d` every entry is at least `d` more than the one `k` places before it.
Neighbours need not be in order. Entries `k * m` places apart differ by `m • d` (`Lagged.iterate`),
and a window shorter than `m • d` holds at most `k * m` entries (`Lagged.card_le`).
-/

namespace Camerasp.Lib

variable {α : Type*} [AddCommGroup α] [LinearOrder α] [IsOrderedAddMonoid α]

/-- Every entry is at least `d` more than the one `k` places before. -/
def Lagged (k : Nat) (d : α) (xs : List α) : Prop :=
  ∀ i (h : i + k < xs.length), xs[i] + d ≤ xs[i + k]

variable {k : Nat} {d : α} {xs : List α}

theorem Lagged.iterate (hl : Lagged k d xs) (m i : Nat) (h : i + k * m < xs.length) :
    xs[i] + m • d ≤ xs[i + k * m] := by
  induction m with
  | zero => simp
  | succ m ih =>
    have hm : i + k * m + k < xs.length := by
      rw [Nat.mul_succ] at h
      omega
    calc xs[i] + (m + 1) • d = xs[i] + m • d + d := by rw [succ_nsmul, add_assoc]
      _ ≤ xs[i + k * m] + d := add_le_add_left (ih (by omega)) d
      _ ≤ xs[i + k * m + k] := hl _ hm
      _ = xs[i + k * (m + 1)] := by simp only [Nat.mul_succ, Nat.add_assoc]

/-- More than `m` numbers of one residue modulo `k` reach over `k * m`. -/
theorem exists_far_of_card {m r : Nat} {s : Finset Nat} (hr : ∀ i ∈ s, i % k = r)
    (hc : m < s.card) : ∃ i ∈ s, ∃ j ∈ s, ∃ q, m ≤ q ∧ j = i + k * q := by
  have hne : s.Nonempty := Finset.card_pos.mp (Nat.zero_lt_of_lt hc)
  obtain ⟨i, hi, hmin⟩ := s.exists_min_image id hne
  obtain ⟨j, hj, hmax⟩ := s.exists_max_image id hne
  have hinj : Set.InjOn (· / k) (s : Set Nat) := by
    intro x hx y hy hxy
    rw [← Nat.div_add_mod x k, ← Nat.div_add_mod y k, hr x hx, hr y hy]
    exact congrArg (k * · + r) hxy
  have hsub : s.image (· / k) ⊆ Finset.Icc (i / k) (j / k) := by
    intro q hq
    obtain ⟨x, hx, rfl⟩ := Finset.mem_image.mp hq
    rw [Finset.mem_Icc]
    exact ⟨Nat.div_le_div_right (hmin x hx), Nat.div_le_div_right (hmax x hx)⟩
  have hcard := Finset.card_le_card hsub
  rw [Finset.card_image_of_injOn hinj, Nat.card_Icc] at hcard
  refine ⟨i, hi, j, hj, j / k - i / k, by omega, ?_⟩
  have hij : i / k ≤ j / k := Nat.div_le_div_right (hmin j hj)
  have hmul : k * (i / k) ≤ k * (j / k) := Nat.mul_le_mul_left k hij
  rw [Nat.mul_sub]
  have hdi := Nat.div_add_mod i k
  have hdj := Nat.div_add_mod j k
  rw [hr i hi] at hdi
  rw [hr j hj] at hdj
  omega

/-- **A window shorter than `m • d` holds at most `k * m` entries.** -/
theorem Lagged.card_le (hl : Lagged k d xs) (hk : 0 < k) (hd : 0 ≤ d) {a b : α} {m : Nat}
    (hw : b - a < m • d) {s : Finset Nat} (hs : ∀ i ∈ s, ∃ x, xs[i]? = some x ∧ a ≤ x ∧ x ≤ b) :
    s.card ≤ k * m := by
  by_contra hc
  obtain ⟨r, -, hr⟩ := Finset.exists_lt_card_fiber_of_mul_lt_card_of_maps_to
    (f := (· % k)) (t := Finset.range k) (s := s) (n := m)
    (fun i _ => Finset.mem_range.mpr (Nat.mod_lt i hk))
    (by rw [Finset.card_range]; omega)
  obtain ⟨i, hi, j, hj, q, hq, rfl⟩ :=
    exists_far_of_card (fun i hi => (Finset.mem_filter.mp hi).2) hr
  obtain ⟨x, hx, hax, -⟩ := hs i (Finset.mem_filter.mp hi).1
  obtain ⟨y, hy, -, hyb⟩ := hs _ (Finset.mem_filter.mp hj).1
  obtain ⟨h, rfl⟩ := List.getElem?_eq_some_iff.mp hy
  obtain ⟨_, rfl⟩ := List.getElem?_eq_some_iff.mp hx
  have hspan : a + m • d ≤ b :=
    calc a + m • d ≤ xs[i] + q • d := add_le_add hax (nsmul_le_nsmul_left hd hq)
      _ ≤ xs[i + k * q] := hl.iterate q i h
      _ ≤ b := hyb
  rw [sub_lt_iff_lt_add'] at hw
  exact absurd hspan (not_le_of_gt hw)

end Camerasp.Lib
