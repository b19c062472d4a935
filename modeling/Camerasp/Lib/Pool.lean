import Mathlib.Tactic.Common

/-!
# Pools of tasks

A pool is a list of tasks, each at its own point. `replaceAt l i r` is the pool after task `i` has
taken a step: it goes on as `r`, or has ended. `exists_split` gives the task its place between the
others, and the pool after any of its steps; `countP_split` and `countP_replaced` count the tasks
before and after, `filterMap_split` lists what they hold, and `pairwise_replaced` keeps a relation
between earlier and later ones.
-/

namespace Camerasp.Lib

variable {α : Type*}

/-- Task `i` goes on as `r`, or ends. -/
def replaceAt (l : List α) (i : Nat) (r : Option α) : List α :=
  l.take i ++ (r.toList ++ l.drop (i + 1))

theorem replaceAt_append (pre post : List α) (a : α) (r : Option α) :
    replaceAt (pre ++ a :: post) pre.length r = pre ++ (r.toList ++ post) := by
  simp [replaceAt]

/-- **The others stay as they are, around task `i`.** -/
theorem exists_split {l : List α} {i : Nat} {a : α} (h : l[i]? = some a) :
    ∃ pre post, l = pre ++ a :: post ∧ pre.length = i ∧
      ∀ r, replaceAt l i r = pre ++ (r.toList ++ post) := by
  obtain ⟨hi, rfl⟩ := List.getElem?_eq_some_iff.mp h
  refine ⟨l.take i, l.drop (i + 1), ?_, ?_, fun r => rfl⟩
  · rw [List.getElem_cons_drop, List.take_append_drop]
  · rw [List.length_take]
    omega

section Replaced

variable {l pre post : List α} {a : α}

theorem getElem?_split (h : l = pre ++ a :: post) : l[pre.length]? = some a := by
  rw [h, List.getElem?_append_right (Nat.le_refl _), Nat.sub_self, List.getElem?_cons_zero]

theorem countP_split (f : α → Bool) (h : l = pre ++ a :: post) :
    l.countP f = pre.countP f + post.countP f + (f a).toNat := by
  rw [h, List.countP_append, List.countP_cons, Nat.add_assoc]
  cases f a <;> rfl

theorem countP_replaced (f : α → Bool) (pre post : List α) (r : Option α) :
    (pre ++ (r.toList ++ post)).countP f =
      pre.countP f + post.countP f + r.elim 0 (fun b => (f b).toNat) := by
  cases r with
  | none => exact List.countP_append
  | some b => exact countP_split f rfl

theorem length_replaced_le (h : l = pre ++ a :: post) (r : Option α) :
    (pre ++ (r.toList ++ post)).length ≤ l.length := by
  cases r <;> simp [h]

theorem mem_replaced {r : Option α} {b : α} (h : l = pre ++ a :: post)
    (hb : b ∈ pre ++ (r.toList ++ post)) : b ∈ l ∨ r = some b := by
  rw [List.mem_append, List.mem_append] at hb
  rcases hb with hb | hb | hb
  · exact .inl (h ▸ List.mem_append_left _ hb)
  · exact .inr (Option.mem_toList.mp hb)
  · exact .inl (h ▸ List.mem_append_right _ (List.mem_cons_of_mem _ hb))

theorem filterMap_split {β : Type*} (f : α → Option β) (h : l = pre ++ a :: post) :
    l.filterMap f = pre.filterMap f ++ ((f a).toList ++ post.filterMap f) := by
  rw [h, List.filterMap_append, List.filterMap_cons]
  cases f a <;> rfl

theorem mem_replaced_iff (h : l = pre ++ a :: post) {r : Option α} {b : α} (ha : b ≠ a)
    (hr : r ≠ some b) : b ∈ pre ++ (r.toList ++ post) ↔ b ∈ l := by
  constructor
  · exact fun hb => (mem_replaced h hb).resolve_right hr
  · intro hb
    rw [h, List.mem_append, List.mem_cons] at hb
    rcases hb with hb | rfl | hb
    · exact List.mem_append_left _ hb
    · exact absurd rfl ha
    · exact List.mem_append_right _ (List.mem_append_right _ hb)

theorem pairwise_split {R : α → α → Prop} (h : l = pre ++ a :: post) (hl : l.Pairwise R) :
    (∀ e ∈ pre, R e a) ∧ ∀ e ∈ post, R a e := by
  rw [h, List.pairwise_append, List.pairwise_cons] at hl
  exact ⟨fun e he => hl.2.2 e he a List.mem_cons_self, hl.2.1.1⟩

/-- **The order of the others is kept**, and the task's own where its step keeps it. -/
theorem pairwise_replaced {R : α → α → Prop} (h : l = pre ++ a :: post) (hl : l.Pairwise R) {b : α}
    (hpre : ∀ e ∈ pre, R e a → R e b) (hpost : ∀ e ∈ post, R a e → R b e) :
    (pre ++ b :: post).Pairwise R := by
  obtain ⟨ha, ha'⟩ := pairwise_split h hl
  rw [h, List.pairwise_append, List.pairwise_cons] at hl
  obtain ⟨h₁, ⟨-, h₂⟩, h₁₂⟩ := hl
  refine List.pairwise_append.mpr ⟨h₁, List.pairwise_cons.mpr ⟨fun e he => ?_, h₂⟩, ?_⟩
  · exact hpost e he (ha' e he)
  · intro e he e' he'
    rcases List.mem_cons.mp he' with rfl | he'
    · exact hpre e he (ha e he)
    · exact h₁₂ e he e' (List.mem_cons_of_mem _ he')

theorem pairwise_removed {R : α → α → Prop} (h : l = pre ++ a :: post) (hl : l.Pairwise R) :
    (pre ++ post).Pairwise R :=
  hl.sublist (h ▸ (List.sublist_cons_self a post).append_left pre)

end Replaced

end Camerasp.Lib
