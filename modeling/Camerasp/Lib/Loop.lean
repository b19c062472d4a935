import Mathlib.Tactic.Common

/-!
# While loops whose body can fault

A `Loop` runs its body while its guard holds; `none` is a fault of the body, or more rounds than
allowed. A proof gives the rounds the loop takes, or a variant that bounds them, and the result
holds for any allowance from there on.

* `upTo_eq`, `upTo_invariant`: an iteration with known values, or with an invariant.
* `run_of_rounds`, `run_fault`: what a loop returns, from the state after some rounds.
* `run_total`: an invariant and a variant.
* `run_count`: a loop with a counter is the iteration `upTo` of its body over the counter's values.
-/

namespace Camerasp.Lib

/-- `while (guard) body`. -/
structure Loop (σ : Type*) where
  guard : σ → Bool
  body : σ → Option σ

/-- `f 0`, then `f 1`, up to `f (n - 1)`. -/
def upTo {δ : Type*} (f : Nat → δ → Option δ) : Nat → δ → Option δ
  | 0, d => some d
  | n + 1, d => (upTo f n d).bind (f n)

/-- The first value first. -/
theorem upTo_cons {δ : Type*} (f : Nat → δ → Option δ) (n : Nat) (d : δ) :
    upTo f (n + 1) d = (f 0 d).bind (upTo (fun k => f (k + 1)) n) := by
  induction n with
  | zero => cases h : f 0 d <;> simp [upTo, h]
  | succ n ih =>
    rw [upTo, ih, Option.bind_assoc]
    rfl

section Iteration

variable {δ : Type*} {f : Nat → δ → Option δ} {n : Nat} {d : δ}

/-- An iteration whose values are known. -/
theorem upTo_eq {a : Nat → δ} (step : ∀ k < n, f k (a k) = some (a (k + 1))) :
    upTo f n (a 0) = some (a n) := by
  induction n with
  | zero => rfl
  | succ n ih =>
    have hn := ih fun k hk => step k (Nat.lt_succ_of_lt hk)
    rw [upTo, hn, Option.bind_some, step n (Nat.lt_succ_self n)]

/-- **What every value of the counter keeps** holds at the end. -/
theorem upTo_invariant {I : Nat → δ → Prop}
    (step : ∀ k d e, k < n → I k d → f k d = some e → I (k + 1) e) (hd : I 0 d) {e : δ}
    (h : upTo f n d = some e) : I n e := by
  induction n generalizing e with
  | zero => cases h; exact hd
  | succ n ih =>
    obtain ⟨c, hc, he⟩ := Option.bind_eq_some_iff.mp h
    have hn := ih (fun k d e hk => step k d e (Nat.lt_succ_of_lt hk)) hc
    exact step n c e (Nat.lt_succ_self n) hn he

/-- An iteration that faults does so at some point. -/
theorem upTo_fault (h : upTo f n d = none) : ∃ k e, k < n ∧ upTo f k d = some e ∧ f k e = none := by
  induction n with
  | zero => cases h
  | succ n ih =>
    cases he : upTo f n d with
    | none =>
      obtain ⟨k, e, hk, hd, hf⟩ := ih he
      exact ⟨k, e, Nat.lt_succ_of_lt hk, hd, hf⟩
    | some e =>
      rw [upTo, he] at h
      exact ⟨n, e, Nat.lt_succ_self n, he, h⟩

end Iteration

namespace Loop

variable {σ : Type*} (L : Loop σ)

/-- The state after `n` rounds, where the loop takes as many. -/
def rounds : Nat → σ → Option σ
  | 0, s => some s
  | n + 1, s => (rounds n s).bind fun t => if L.guard t then L.body t else none

/-- The loop, in at most `n` rounds. -/
def run : Nat → σ → Option σ
  | 0, s => if L.guard s then none else some s
  | n + 1, s => if L.guard s then (L.body s).bind (run n) else some s

variable {L}

theorem run_exit {s : σ} (h : L.guard s = false) (n : Nat) : L.run n s = some s := by
  cases n <;> simp [run, h]

theorem run_round {s t : σ} (h : L.guard s = true) (hb : L.body s = some t) (n : Nat) :
    L.run (n + 1) s = L.run n t := by
  simp [run, h, hb]

theorem run_body_fault {s : σ} (h : L.guard s = true) (hb : L.body s = none) (n : Nat) :
    L.run n s = none := by
  cases n <;> simp [run, h, hb]

theorem rounds_succ {s t : σ} {n : Nat} (h : L.rounds (n + 1) s = some t) :
    ∃ u, L.rounds n s = some u ∧ L.guard u = true ∧ L.body u = some t := by
  obtain ⟨u, hu, ht⟩ := Option.bind_eq_some_iff.mp h
  cases hg : L.guard u with
  | false => simp [hg] at ht
  | true => exact ⟨u, hu, hg, by simpa [hg] using ht⟩

/-- The rounds taken come off the allowance. -/
theorem run_rounds {s t : σ} {n : Nat} (h : L.rounds n s = some t) (m : Nat) :
    L.run (n + m) s = L.run m t := by
  induction n generalizing t m with
  | zero => cases h; rw [Nat.zero_add]
  | succ n ih =>
    obtain ⟨u, hu, hg, hb⟩ := rounds_succ h
    rw [Nat.add_assoc, Nat.add_comm 1 m, ih hu (m + 1), run_round hg hb]

/-- **A loop that comes to its end within the allowance returns the state there.** -/
theorem run_of_rounds {s t : σ} {n m : Nat} (h : L.rounds n s = some t)
    (hg : L.guard t = false) (hm : n ≤ m) : L.run m s = some t := by
  obtain ⟨k, rfl⟩ := Nat.exists_eq_add_of_le hm
  rw [run_rounds h, run_exit hg]

/-- **A loop whose body faults returns nothing.** -/
theorem run_fault {s t : σ} {n m : Nat} (h : L.rounds n s = some t) (hg : L.guard t = true)
    (hb : L.body t = none) (hm : n ≤ m) : L.run m s = none := by
  obtain ⟨k, rfl⟩ := Nat.exists_eq_add_of_le hm
  rw [run_rounds h, run_body_fault hg hb]

/-- **A loop whose body keeps an invariant and lowers a variant ends**, with the invariant. -/
theorem run_total {I : σ → Prop} {v : σ → Nat}
    (step : ∀ s, I s → L.guard s = true → ∃ t, L.body s = some t ∧ I t ∧ v t < v s)
    {s : σ} {n : Nat} (hs : I s) (hn : v s ≤ n) :
    ∃ t, L.run n s = some t ∧ I t ∧ L.guard t = false := by
  induction n generalizing s with
  | zero =>
    cases hg : L.guard s with
    | false => exact ⟨s, run_exit hg 0, hs, hg⟩
    | true =>
      obtain ⟨t, -, -, hv⟩ := step s hs hg
      omega
  | succ n ih =>
    cases hg : L.guard s with
    | false => exact ⟨s, run_exit hg _, hs, hg⟩
    | true =>
      obtain ⟨t, hb, ht, hv⟩ := step s hs hg
      rw [run_round hg hb]
      exact ih ht (by omega)

/-! ## Loops with a counter -/

section Count

variable {δ : Type*} {state : Nat → δ → σ} {f : Nat → δ → Option δ} {n : Nat}
  (hg : ∀ k d, k ≤ n → L.guard (state k d) = decide (k < n))
  (hb : ∀ k d, k < n → L.body (state k d) = (f k d).map (state (k + 1)))

include hg hb

theorem rounds_count {k : Nat} (hk : k ≤ n) (d : δ) :
    L.rounds k (state 0 d) = (upTo f k d).map (state k) := by
  induction k with
  | zero => rfl
  | succ k ih =>
    rw [rounds, ih (by omega), upTo]
    cases upTo f k d with
    | none => rfl
    | some e =>
      have hgk : L.guard (state k e) = true := by rw [hg k e (by omega)]; exact decide_eq_true hk
      simp only [Option.map_some, Option.bind_some, hgk, if_true]
      exact hb k e hk

/-- **A loop with a counter** iterates its body over the values of the counter. -/
theorem run_count {m : Nat} (hm : n ≤ m) (d : δ) :
    L.run m (state 0 d) = (upTo f n d).map (state n) := by
  cases h : upTo f n d with
  | some e =>
    have hr := rounds_count hg hb (Nat.le_refl n) d
    rw [h] at hr
    exact run_of_rounds hr ((hg n e (Nat.le_refl n)).trans (decide_eq_false (Nat.lt_irrefl n))) hm
  | none =>
    obtain ⟨k, e, hk, he, hf⟩ := upTo_fault h
    have hr := rounds_count hg hb (Nat.le_of_lt hk) d
    rw [he] at hr
    refine run_fault hr ((hg k e (Nat.le_of_lt hk)).trans (decide_eq_true hk)) ?_ (by omega)
    rw [hb k e hk, hf, Option.map_none]

end Count

end Loop

end Camerasp.Lib
