import Mathlib.Data.List.Nodup
import Mathlib.Logic.Function.Basic
import Mathlib.Tactic.Common

/-!
# Lists linked by pointers

A node has one pointer, `next`. `Segment next p l q`: from `p` on the nodes `l` are met, and then
the pointer `q`; a whole list ends with `q = none`.

Results:
* `segment_append`: a segment is cut anywhere.
* `Segment.congr`, `Segment.update`: what is not in a segment may change.
* `Segment.eq`, `Segment.mem`, `Segment.nodup`: there is one whole list from a pointer, every segment
  is part of it, and it has no node twice.
-/

namespace Camerasp.Lib

variable {α : Type*}

/-- From the pointer `p` on the nodes `l` are met, and then the pointer `q`. -/
def Segment (next : α → Option α) : Option α → List α → Option α → Prop
  | p, [], q => p = q
  | p, a :: l, q => p = some a ∧ Segment next (next a) l q

variable {next next' : α → Option α} {p q : Option α} {l m : List α}

theorem segment_append : Segment next p (l ++ m) q ↔
    ∃ r, Segment next p l r ∧ Segment next r m q := by
  induction l generalizing p with
  | nil => simp [Segment]
  | cons a l ih => simp [Segment, ih, and_assoc]

/-- The last node of a segment points to its end. -/
theorem segment_snoc {a : α} : Segment next p (l ++ [a]) q ↔
    Segment next p l (some a) ∧ next a = q := by
  rw [segment_append]
  simp only [Segment]
  constructor
  · rintro ⟨r, hl, rfl, hq⟩
    exact ⟨hl, hq⟩
  · rintro ⟨hl, hq⟩
    exact ⟨_, hl, rfl, hq⟩

theorem Segment.congr (h : Segment next p l q) (hn : ∀ a ∈ l, next' a = next a) :
    Segment next' p l q := by
  induction l generalizing p with
  | nil => exact h
  | cons a l ih =>
    refine ⟨h.1, ?_⟩
    rw [hn a List.mem_cons_self]
    exact ih h.2 fun b hb => hn b (List.mem_cons_of_mem _ hb)

/-- **A node outside of a segment may change its pointer.** -/
theorem Segment.update [DecidableEq α] {a : α} (h : Segment next p l q) (ha : a ∉ l)
    (r : Option α) : Segment (Function.update next a r) p l q :=
  h.congr fun _ hb => Function.update_of_ne (ne_of_mem_of_not_mem hb ha) _ _

/-- **There is one whole list from a pointer.** -/
theorem Segment.eq (h : Segment next p l none) (h' : Segment next p m none) : l = m := by
  induction l generalizing p m with
  | nil =>
    cases m with
    | nil => rfl
    | cons b m =>
      obtain rfl : p = none := h
      exact absurd h'.1 nofun
  | cons a l ih =>
    obtain ⟨rfl, h⟩ := h
    cases m with
    | nil => exact absurd h' nofun
    | cons b m =>
      obtain ⟨hb, h'⟩ := h'
      obtain rfl := Option.some.inj hb
      rw [ih h h']

/-- What a segment leads to is in the whole list. -/
theorem Segment.mem {a : α} (h : Segment next p m (some a)) (h' : Segment next p l none) :
    a ∈ l := by
  induction m generalizing p l with
  | nil =>
    obtain rfl : p = some a := h
    cases l with
    | nil => cases h'
    | cons b l =>
      rw [Option.some.inj h'.1]
      exact List.mem_cons_self
  | cons b m ih =>
    obtain ⟨rfl, h⟩ := h
    cases l with
    | nil => cases h'
    | cons c l =>
      obtain ⟨hc, h'⟩ := h'
      obtain rfl := Option.some.inj hc
      exact List.mem_cons_of_mem _ (ih h h')

/-- **A whole list has no node twice.** -/
theorem Segment.nodup (h : Segment next p l none) : l.Nodup := by
  induction l generalizing p with
  | nil => exact List.nodup_nil
  | cons a l ih =>
    refine List.nodup_cons.mpr ⟨fun ha => ?_, ih h.2⟩
    obtain ⟨l₁, l₂, rfl⟩ := List.append_of_mem ha
    -- what follows the second occurrence follows the first too, and is shorter
    obtain ⟨r, -, hr⟩ := segment_append.mp h.2
    have heq := congrArg List.length (h.2.eq hr.2)
    simp only [List.length_append, List.length_cons] at heq
    omega

end Camerasp.Lib
