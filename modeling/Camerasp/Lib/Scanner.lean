import Mathlib.Tactic.Common

/-!
# Scanners: parsers that take one element at a time

A `Scanner` takes elements until it is `done`; a step may refuse its element. `scan` runs it over
a buffer and says what is left of it. The buffer may end early: the state is then where the next
buffer goes on.

`run s v = some s'` says that the scanner takes all of `v`, from `s` to `s'`, and is not done
before its end. `Refuses s v` says that it takes all but the last element. `scan_append`,
`exists_of_run_append`, `Refuses.scan` and `Refuses.scan_part` turn this into what `scan` does with
a buffer that holds all of `v` and more, or a first part of it: **how a text is cut into buffers
makes no difference to a scanner**. Of a text whose end alone can end the scan, one or the other is
true (`run_or_refuses`).
-/

namespace Camerasp.Lib

/-- **Two ways to divide a text**: the first part of one begins with that of the other. -/
theorem cut_cases {α : Type*} {b b' v t : List α} (h : b ++ b' = v ++ t) :
    (∃ u, b = v ++ u ∧ t = u ++ b') ∨ ∃ w, w ≠ [] ∧ v = b ++ w ∧ b' = w ++ t := by
  rcases List.append_eq_append_iff.mp h with ⟨w, hv, hb'⟩ | ⟨u, hb, ht⟩
  · by_cases hw : w = []
    · subst hw
      exact .inl ⟨[], by simp [hv], by simp [hb']⟩
    · exact .inr ⟨w, hw, hv, hb'⟩
  · exact .inl ⟨u, hb, ht⟩

/-- Takes elements one by one, until it is done. -/
structure Scanner (σ α : Type*) where
  /-- whether the element is accepted, and the state after it either way -/
  step : σ → α → Bool × σ
  done : σ → Bool

namespace Scanner

variable {σ α : Type*} (S : Scanner σ α)

/-- Scans a buffer: whether every element taken was accepted, the state, the rest of the
buffer. -/
def scan : σ → List α → Bool × σ × List α
  | s, [] => (true, s, [])
  | s, a :: v =>
    if S.done s then (true, s, a :: v)
    else if (S.step s a).1 then scan (S.step s a).2 v
    else (false, (S.step s a).2, v)

/-- The state after all of a text, where the scanner takes it all. -/
def run : σ → List α → Option σ
  | s, [] => some s
  | s, a :: v => if S.done s || !(S.step s a).1 then none else run (S.step s a).2 v

variable {S}

@[simp] theorem run_nil (s : σ) : S.run s [] = some s := rfl

theorem run_cons {s s' : σ} {a : α} {v : List α} :
    S.run s (a :: v) = some s' ↔
      S.done s = false ∧ (S.step s a).1 = true ∧ S.run (S.step s a).2 v = some s' := by
  cases hd : S.done s <;> cases ha : (S.step s a).1 <;> simp [run, hd, ha]

theorem run_append {s : σ} {v w : List α} :
    S.run s (v ++ w) = (S.run s v).bind (fun s' => S.run s' w) := by
  induction v generalizing s with
  | nil => rfl
  | cons a v ih =>
    simp only [List.cons_append, run]
    split
    · rfl
    · exact ih

/-- A scanner that takes two texts takes one after the other. -/
theorem run_trans {s s' s'' : σ} {v w : List α} (h : S.run s v = some s')
    (h' : S.run s' w = some s'') : S.run s (v ++ w) = some s'' := by
  rw [run_append, h]
  exact h'

theorem exists_of_run_append {s s'' : σ} {v w : List α} (h : S.run s (v ++ w) = some s'') :
    ∃ s', S.run s v = some s' ∧ S.run s' w = some s'' := by
  rw [run_append, Option.bind_eq_some_iff] at h
  exact h

/-- **A text taken element by element**, where `g w` is the state after its first part `w`. -/
theorem run_all {g : List α → σ} {v : List α}
    (h : ∀ w a u, v = w ++ a :: u → S.done (g w) = false ∧ S.step (g w) a = (true, g (w ++ [a]))) :
    S.run (g []) v = some (g v) := by
  suffices hrest : ∀ u w, v = w ++ u → S.run (g w) u = some (g v) from hrest v [] rfl
  intro u
  induction u with
  | nil =>
    intro w hw
    rw [hw, List.append_nil, run_nil]
  | cons a u ih =>
    intro w hw
    obtain ⟨hd, hs⟩ := h w a u hw
    rw [run_cons, hs]
    exact ⟨hd, rfl, ih (w ++ [a]) (by rw [hw, List.append_assoc]; rfl)⟩

/-- **An invariant of the accepted steps holds after every text taken.** -/
theorem run_invariant {P : σ → Prop} (step : ∀ s a, P s → (S.step s a).1 = true → P (S.step s a).2)
    {s s' : σ} {v : List α} (h : S.run s v = some s') (hs : P s) : P s' := by
  induction v generalizing s with
  | nil => cases h; exact hs
  | cons a v ih =>
    obtain ⟨-, ha, hrun⟩ := run_cons.mp h
    exact ih hrun (step s a hs ha)

/-- A scanner that has something to take is not done. -/
theorem not_done_of_run {s s' : σ} {v : List α} (h : S.run s v = some s') (hv : v ≠ []) :
    S.done s = false := by
  cases v with
  | nil => exact absurd rfl hv
  | cons a v => exact (run_cons.mp h).1

/-- **A buffer that begins with a text the scanner takes.** -/
theorem scan_append {s s' : σ} {v : List α} (h : S.run s v = some s') (t : List α) :
    S.scan s (v ++ t) = S.scan s' t := by
  induction v generalizing s with
  | nil => cases h; rfl
  | cons a v ih =>
    obtain ⟨hd, ha, hrun⟩ := run_cons.mp h
    simp only [List.cons_append, scan, hd, ha, Bool.false_eq_true, if_false, if_true]
    exact ih hrun

theorem scan_done {s : σ} (h : S.done s) (t : List α) : S.scan s t = (true, s, t) := by
  cases t with
  | nil => rfl
  | cons a t => simp only [scan, h, if_true]

/-- **A buffer that begins with the whole text.** -/
theorem scan_of_run {s s' : σ} {v : List α} (h : S.run s v = some s') (hd : S.done s')
    (t : List α) : S.scan s (v ++ t) = (true, s', t) := by
  rw [scan_append h, scan_done hd]

/-- **A buffer that ends within the text.** -/
theorem scan_of_run_append {s s'' : σ} {v w : List α} (h : S.run s (v ++ w) = some s'')
    (hw : w ≠ []) :
    ∃ s', S.scan s v = (true, s', []) ∧ S.done s' = false ∧ S.run s v = some s' ∧
      S.run s' w = some s'' := by
  obtain ⟨s', hv, hw'⟩ := exists_of_run_append h
  refine ⟨s', ?_, not_done_of_run hw' hw, hv, hw'⟩
  have hscan := scan_append hv []
  rw [List.append_nil] at hscan
  exact hscan

/-- **A buffer of a longer text that begins with `v`**: it holds all of `v`, or ends within. -/
theorem scan_cut {s s' : σ} {v t b b' : List α} (h : S.run s v = some s') (hd : S.done s')
    (hcut : b ++ b' = v ++ t) :
    (∃ u, t = u ++ b' ∧ S.scan s b = (true, s', u)) ∨
      ∃ w u, w ≠ [] ∧ b' = w ++ t ∧ S.scan s b = (true, u, []) ∧ S.done u = false ∧
        S.run s b = some u ∧ S.run u w = some s' := by
  rcases cut_cases hcut with ⟨u, rfl, rfl⟩ | ⟨w, hw, rfl, rfl⟩
  · exact .inl ⟨u, rfl, scan_of_run h hd u⟩
  · obtain ⟨u, hscan, hdone, htaken, hrest⟩ := scan_of_run_append h hw
    exact .inr ⟨w, u, hw, rfl, hscan, hdone, htaken, hrest⟩

/-! ## Texts that are refused -/

/-- From `s` the last element of the text is refused, and none before it. -/
inductive Refuses (S : Scanner σ α) : σ → List α → Prop
  | here {s a} (hd : S.done s = false) (ha : (S.step s a).1 = false) : Refuses S s [a]
  | there {s a v} (hd : S.done s = false) (ha : (S.step s a).1 = true)
      (hr : Refuses S (S.step s a).2 v) : Refuses S s (a :: v)

theorem Refuses.ne_nil {s : σ} {v : List α} (h : S.Refuses s v) : v ≠ [] := by
  cases h <;> exact List.cons_ne_nil _ _

theorem Refuses.not_done {s : σ} {v : List α} (h : S.Refuses s v) : S.done s = false := by
  cases h <;> assumption

/-- **A buffer that begins with the text.** -/
theorem Refuses.scan {s : σ} {v : List α} (h : S.Refuses s v) (t : List α) :
    ∃ s' a, S.scan s (v ++ t) = (false, (S.step s' a).2, t) ∧ (S.step s' a).1 = false := by
  induction h with
  | @here s a hd ha => exact ⟨s, a, by simp [Scanner.scan, hd, ha], ha⟩
  | there hd ha hr ih =>
    obtain ⟨s', a, hscan, hrefused⟩ := ih
    refine ⟨s', a, ?_, hrefused⟩
    simp only [List.cons_append, Scanner.scan, hd, ha, Bool.false_eq_true, if_false, if_true]
    exact hscan

theorem Refuses.of_append {s : σ} {v w : List α} (h : S.Refuses s (v ++ w)) (hw : w ≠ []) :
    ∃ s', S.run s v = some s' ∧ S.Refuses s' w := by
  induction v generalizing s with
  | nil => exact ⟨s, rfl, h⟩
  | cons a v ih =>
    rw [List.cons_append] at h
    generalize hvw : v ++ w = u at h
    cases h with
    | here =>
      have hnil : w = [] := (List.append_eq_nil_iff.mp hvw).2
      exact absurd hnil hw
    | there hd ha hr =>
      obtain ⟨s', hrun, hrest⟩ := ih (hvw ▸ hr)
      exact ⟨s', run_cons.mpr ⟨hd, ha, hrun⟩, hrest⟩

/-- **A buffer that ends within the text.** -/
theorem Refuses.scan_part {s : σ} {v w : List α} (h : S.Refuses s (v ++ w)) (hw : w ≠ []) :
    ∃ s', S.scan s v = (true, s', []) ∧ S.done s' = false ∧ S.run s v = some s' ∧
      S.Refuses s' w := by
  obtain ⟨s', hrun, hrest⟩ := h.of_append hw
  have hscan := scan_append hrun []
  rw [List.append_nil] at hscan
  exact ⟨s', hscan, hrest.not_done, hrun, hrest⟩

/-- **A text in which only the last element, `e`, can end the scan** is taken, or some first part
of it is refused. -/
theorem run_or_refuses {e : α}
    (hend : ∀ s a, S.done s = false → a ≠ e → S.done (S.step s a).2 = false) {v : List α}
    (hv : e ∉ v) {s : σ} (hs : S.done s = false) :
    (∃ s', S.run s (v ++ [e]) = some s') ∨ ∃ u w, v ++ [e] = u ++ w ∧ S.Refuses s u := by
  induction v generalizing s with
  | nil =>
    cases ha : (S.step s e).1
    · exact .inr ⟨[e], [], rfl, .here hs ha⟩
    · exact .inl ⟨_, run_cons.mpr ⟨hs, ha, rfl⟩⟩
  | cons a v ih =>
    rw [List.mem_cons, not_or] at hv
    cases ha : (S.step s a).1
    · exact .inr ⟨[a], v ++ [e], rfl, .here hs ha⟩
    · rcases ih hv.2 (hend s a hs (Ne.symm hv.1)) with ⟨s', hrun⟩ | ⟨u, w, heq, hr⟩
      · exact .inl ⟨s', run_cons.mpr ⟨hs, ha, hrun⟩⟩
      · exact .inr ⟨a :: u, w, by rw [List.cons_append, heq]; rfl, .there hs ha hr⟩

end Scanner

end Camerasp.Lib
