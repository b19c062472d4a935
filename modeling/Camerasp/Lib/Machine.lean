import Mathlib.Tactic.Common

/-!
# Machines with outputs: runs, conditions on steps, invariants

A `Machine` executes one input at a time. `exec s i` is the next state and the output, or the
reason why the step never completes (a fault, a wait that nothing ends). A run stops at the
first input that does not complete.

* `log s is`: what the completed steps put out.
* `Steps R s is`: the relation `R` holds of every step the run attempts, also of the last one
  when it does not complete.
* `Always P s is`: `P` holds in every state the run passes, the first and the last included.

Results:
* `run_invariant`, `always_of_step` and `run_log_invariant`: an invariant of the steps, of the state
  alone or of the state and the outputs so far, is one of the run.
* `steps_of_inv`, `always_of_inv` and `steps_log_invariant`: a condition on every step gives a
  property of every step, of every state, or of the state and the outputs so far, as long as it
  keeps an invariant.
* `steps_iff_of_inv` and `always_iff_steps`: and exactly when, where condition and property agree
  on the states the condition keeps.
* `steps_withHistory`: a value that the inputs update and no step reads changes nothing.
-/

namespace Camerasp.Lib

/-- A deterministic machine: `exec s i` is the next state and the output, or why there is none. -/
structure Machine (σ ι ρ ε : Type*) where
  exec : σ → ι → Except ε (σ × ρ)

namespace Machine

variable {σ ι ρ ε : Type*} (M : Machine σ ι ρ ε)

/-- The state after the inputs, or why the run stopped. -/
def run : σ → List ι → Except ε σ
  | s, [] => .ok s
  | s, i :: is =>
    match M.exec s i with
    | .ok (s', _) => run s' is
    | .error e => .error e

/-- What the completed steps put out, in order. -/
def log : σ → List ι → List ρ
  | _, [] => []
  | s, i :: is =>
    match M.exec s i with
    | .ok (s', o) => o :: log s' is
    | .error _ => []

/-- `R` holds of every step the run attempts. -/
def Steps (R : σ → ι → Except ε (σ × ρ) → Prop) : σ → List ι → Prop
  | _, [] => True
  | s, i :: is => R s i (M.exec s i) ∧ ∀ s' o, M.exec s i = .ok (s', o) → Steps R s' is

/-- `P` holds in every state the run passes. -/
def Always (P : σ → Prop) : σ → List ι → Prop
  | s, [] => P s
  | s, i :: is => P s ∧ ∀ s' o, M.exec s i = .ok (s', o) → Always P s' is

variable {M}

@[simp] theorem run_nil (s : σ) : M.run s [] = .ok s := rfl

theorem run_cons_ok {s s' : σ} {i : ι} {o : ρ} (h : M.exec s i = .ok (s', o)) (is : List ι) :
    M.run s (i :: is) = M.run s' is := by
  simp only [run, h]

theorem log_cons_ok {s s' : σ} {i : ι} {o : ρ} (h : M.exec s i = .ok (s', o)) (is : List ι) :
    M.log s (i :: is) = o :: M.log s' is := by
  simp only [log, h]

theorem run_cons_inv {s t : σ} {i : ι} {is : List ι} (h : M.run s (i :: is) = .ok t) :
    ∃ s' o, M.exec s i = .ok (s', o) ∧ M.run s' is = .ok t := by
  cases he : M.exec s i with
  | error e => simp only [run, he] at h; exact absurd h (by simp)
  | ok r =>
    obtain ⟨s', o⟩ := r
    exact ⟨s', o, rfl, by simpa only [run, he] using h⟩

/-- A machine that never stops. -/
theorem exists_run [IsEmpty ε] (s : σ) (is : List ι) : ∃ t, M.run s is = .ok t := by
  cases h : M.run s is with
  | error e => exact isEmptyElim e
  | ok t => exact ⟨t, rfl⟩

theorem run_append {s t : σ} {is : List ι} (h : M.run s is = .ok t) (js : List ι) :
    M.run s (is ++ js) = M.run t js := by
  induction is generalizing s with
  | nil => rw [run_nil] at h; cases h; rfl
  | cons i is ih =>
    obtain ⟨s', o, he, hr⟩ := run_cons_inv h
    rw [List.cons_append, run_cons_ok he, ih hr]

theorem log_append {s t : σ} {is : List ι} (h : M.run s is = .ok t) (js : List ι) :
    M.log s (is ++ js) = M.log s is ++ M.log t js := by
  induction is generalizing s with
  | nil => rw [run_nil] at h; cases h; rfl
  | cons i is ih =>
    obtain ⟨s', o, he, hr⟩ := run_cons_inv h
    rw [List.cons_append, log_cons_ok he, log_cons_ok he, ih hr, List.cons_append]

theorem log_singleton {s s' : σ} {i : ι} {o : ρ} (h : M.exec s i = .ok (s', o)) :
    M.log s [i] = [o] := log_cons_ok h []

/-- An output of a run comes from one of its steps. -/
theorem mem_log {s : σ} {is : List ι} {o : ρ} (h : o ∈ M.log s is) :
    ∃ pre i post t t', is = pre ++ i :: post ∧ M.run s pre = .ok t ∧ M.exec t i = .ok (t', o) := by
  induction is generalizing s with
  | nil => exact absurd h List.not_mem_nil
  | cons i is ih =>
    cases he : M.exec s i with
    | error e => simp only [log, he, List.not_mem_nil] at h
    | ok r =>
      obtain ⟨s', o'⟩ := r
      rw [log_cons_ok he, List.mem_cons] at h
      rcases h with rfl | h
      · exact ⟨[], i, is, s, s', rfl, rfl, he⟩
      · obtain ⟨pre, j, post, t, t', rfl, hr, hj⟩ := ih h
        exact ⟨i :: pre, j, post, t, t', rfl, (run_cons_ok he pre).trans hr, hj⟩

/-- **An invariant of the steps holds after every run.** -/
theorem run_invariant {I : σ → Prop}
    (step : ∀ s i s' o, I s → M.exec s i = .ok (s', o) → I s') {s t : σ} {is : List ι}
    (h : M.run s is = .ok t) (hs : I s) : I t := by
  induction is generalizing s with
  | nil => rw [run_nil] at h; cases h; exact hs
  | cons i is ih =>
    obtain ⟨s', o, he, hr⟩ := run_cons_inv h
    exact ih hr (step s i s' o hs he)

/-- **An invariant between the state and the outputs so far holds after every run.** -/
theorem run_log_invariant {I : σ → List ρ → Prop}
    (step : ∀ s os i s' o, I s os → M.exec s i = .ok (s', o) → I s' (os ++ [o]))
    {is : List ι} {s t : σ} {os : List ρ} (hs : I s os) (h : M.run s is = .ok t) :
    I t (os ++ M.log s is) := by
  induction is generalizing s os with
  | nil => rw [run_nil] at h; cases h; simpa [log] using hs
  | cons i is ih =>
    obtain ⟨s', o, he, hr⟩ := run_cons_inv h
    rw [log_cons_ok he]
    simpa only [List.append_assoc, List.singleton_append] using ih (step s os i s' o hs he) hr

instance decidableSteps {R : σ → ι → Except ε (σ × ρ) → Prop} [∀ s i r, Decidable (R s i r)] (s : σ) :
    (is : List ι) → Decidable (M.Steps R s is)
  | [] => isTrue trivial
  | i :: is =>
    match h : M.exec s i with
    | .ok (s', _) =>
      have : Decidable (M.Steps R s' is) := decidableSteps s' is
      decidable_of_iff (R s i (M.exec s i) ∧ M.Steps R s' is)
        (and_congr_right fun _ => ⟨fun hs s'' o' he => by
          obtain ⟨rfl, -⟩ := Prod.ext_iff.mp (Except.ok.inj (h.symm.trans he))
          exact hs, fun hs => hs _ _ h⟩)
    | .error _ =>
      decidable_of_iff (R s i (M.exec s i))
        ⟨fun hr => ⟨hr, fun _ _ he => by cases h.symm.trans he⟩, fun hs => hs.1⟩

section Conditions

variable {I : σ → Prop} {C R : σ → ι → Except ε (σ × ρ) → Prop}

/-- **A condition on every step gives a property of every step**, as long as the steps that meet
it keep an invariant under which it does. -/
theorem steps_of_inv (hR : ∀ s i, I s → C s i (M.exec s i) → R s i (M.exec s i))
    (hI : ∀ s i s' o, I s → C s i (.ok (s', o)) → M.exec s i = .ok (s', o) → I s')
    {is : List ι} {s : σ} (hs : I s) (h : M.Steps C s is) : M.Steps R s is := by
  induction is generalizing s with
  | nil => trivial
  | cons i is ih =>
    refine ⟨hR s i hs h.1, fun s' o he => ih (hI s i s' o hs (he ▸ h.1) he) (h.2 s' o he)⟩

/-- Two conditions on every step are one. -/
theorem Steps.and {is : List ι} {s : σ} (hC : M.Steps C s is) (hR : M.Steps R s is) :
    M.Steps (fun s i r => C s i r ∧ R s i r) s is := by
  induction is generalizing s with
  | nil => trivial
  | cons i is ih => exact ⟨⟨hC.1, hR.1⟩, fun s' o he => ih (hC.2 s' o he) (hR.2 s' o he)⟩

/-- A condition on the inputs alone. -/
theorem steps_of_forall_mem {P : ι → Prop} {is : List ι} (h : ∀ i ∈ is, P i) (s : σ) :
    M.Steps (fun _ i _ => P i) s is := by
  induction is generalizing s with
  | nil => trivial
  | cons i is ih =>
    have hrest : ∀ j ∈ is, P j := fun j hj => h j (List.mem_cons_of_mem _ hj)
    exact ⟨h i List.mem_cons_self, fun s' _ _ => ih hrest s'⟩

/-- **A condition on every step keeps an invariant between the state and the outputs so far.** -/
theorem steps_log_invariant {J : σ → List ρ → Prop}
    (hJ : ∀ s os i s' o, J s os → C s i (.ok (s', o)) → M.exec s i = .ok (s', o) → J s' (os ++ [o]))
    {is : List ι} {s t : σ} {os : List ρ} (hs : J s os) (h : M.Steps C s is)
    (hr : M.run s is = .ok t) : J t (os ++ M.log s is) := by
  induction is generalizing s os with
  | nil => rw [run_nil] at hr; cases hr; simpa [log] using hs
  | cons i is ih =>
    obtain ⟨s', o, he, hr'⟩ := run_cons_inv hr
    rw [log_cons_ok he]
    have hrest := ih (hJ s os i s' o hs (he ▸ h.1) he) (h.2 s' o he) hr'
    simpa only [List.append_assoc, List.singleton_append] using hrest

/-- A condition on every step of a run is one on the steps of its two parts. -/
theorem steps_append_inv {is js : List ι} {s t : σ} (h : M.Steps C s (is ++ js))
    (hr : M.run s is = .ok t) : M.Steps C s is ∧ M.Steps C t js := by
  induction is generalizing s with
  | nil => rw [run_nil] at hr; cases hr; exact ⟨trivial, h⟩
  | cons i is ih =>
    obtain ⟨s', o, he, hr'⟩ := run_cons_inv hr
    obtain ⟨hpre, hpost⟩ := ih (h.2 s' o he) hr'
    refine ⟨⟨h.1, fun s'' o' he' => ?_⟩, hpost⟩
    obtain ⟨rfl, -⟩ := Prod.ext_iff.mp (Except.ok.inj (he.symm.trans he'))
    exact hpre

/-- **A condition on every step keeps an invariant in every state of the run.** -/
theorem always_of_inv
    (hI : ∀ s i s' o, I s → C s i (.ok (s', o)) → M.exec s i = .ok (s', o) → I s')
    {is : List ι} {s : σ} (hs : I s) (h : M.Steps C s is) : M.Always I s is := by
  induction is generalizing s with
  | nil => exact hs
  | cons i is ih =>
    exact ⟨hs, fun s' o he => ih (hI s i s' o hs (he ▸ h.1) he) (h.2 s' o he)⟩

/-- **Condition and property agree on every run** when they agree on every step from the states
the condition keeps. -/
theorem steps_iff_of_inv (hR : ∀ s i, I s → (C s i (M.exec s i) ↔ R s i (M.exec s i)))
    (hI : ∀ s i s' o, I s → C s i (.ok (s', o)) → M.exec s i = .ok (s', o) → I s')
    {is : List ι} {s : σ} (hs : I s) : M.Steps C s is ↔ M.Steps R s is := by
  induction is generalizing s with
  | nil => exact Iff.rfl
  | cons i is ih =>
    constructor
    · rintro ⟨h1, h2⟩
      exact ⟨(hR s i hs).mp h1, fun s' o he => (ih (hI s i s' o hs (he ▸ h1) he)).mp (h2 s' o he)⟩
    · rintro ⟨h1, h2⟩
      have hc := (hR s i hs).mpr h1
      exact ⟨hc, fun s' o he => (ih (hI s i s' o hs (he ▸ hc) he)).mpr (h2 s' o he)⟩

end Conditions

/-- **An invariant of the steps holds in every state of every run.** -/
theorem always_of_step {I : σ → Prop}
    (step : ∀ s i s' o, I s → M.exec s i = .ok (s', o) → I s') {s : σ} (hs : I s) (is : List ι) :
    M.Always I s is := by
  induction is generalizing s with
  | nil => exact hs
  | cons i is ih => exact ⟨hs, fun s' o he => ih (step s i s' o hs he)⟩

theorem always_mono {P Q : σ → Prop} (hPQ : ∀ s, P s → Q s) {is : List ι} {s : σ}
    (h : M.Always P s is) : M.Always Q s is := by
  induction is generalizing s with
  | nil => exact hPQ s h
  | cons i is ih => exact ⟨hPQ s h.1, fun s' o he => ih (h.2 s' o he)⟩

/-- **A property holds in every state exactly when a condition holds of every step** that decides
whether the step keeps it. -/
theorem always_iff_steps {P : σ → Prop} {C : σ → ι → Except ε (σ × ρ) → Prop}
    (h : ∀ s i, P s → (C s i (M.exec s i) ↔ ∀ s' o, M.exec s i = .ok (s', o) → P s')) {s : σ}
    (hs : P s) (is : List ι) : M.Always P s is ↔ M.Steps C s is := by
  induction is generalizing s with
  | nil => exact iff_of_true hs trivial
  | cons i is ih =>
    constructor
    · rintro ⟨-, hrest⟩
      have hnext : ∀ s' o, M.exec s i = .ok (s', o) → P s' := fun s' o he =>
        match is, hrest s' o he with
        | [], hp => hp
        | _ :: _, hp => hp.1
      exact ⟨(h s i hs).mpr hnext, fun s' o he => (ih (hnext s' o he)).mp (hrest s' o he)⟩
    · rintro ⟨hc, hrest⟩
      have hnext := (h s i hs).mp hc
      exact ⟨hs, fun s' o he => (ih (hnext s' o he)).mpr (hrest s' o he)⟩

/-- What holds in every state of a run holds in its last one. -/
theorem always_last {P : σ → Prop} {is : List ι} {s t : σ} (h : M.Always P s is)
    (hr : M.run s is = .ok t) : P t := by
  induction is generalizing s with
  | nil => rw [run_nil] at hr; cases hr; exact h
  | cons i is ih =>
    obtain ⟨s', o, he, hr'⟩ := run_cons_inv hr
    exact ih (h.2 s' o he) hr'

/-- A run that breaks a condition on its steps has a first step that does. -/
theorem exists_of_not_steps {C : σ → ι → Except ε (σ × ρ) → Prop} {is : List ι} {s : σ}
    (h : ¬ M.Steps C s is) :
    ∃ pre i post t, is = pre ++ i :: post ∧ M.run s pre = .ok t ∧ M.Steps C s pre ∧
      ¬ C t i (M.exec t i) := by
  induction is generalizing s with
  | nil => exact absurd trivial h
  | cons i is ih =>
    by_cases hc : C s i (M.exec s i)
    · have hn : ¬ ∀ s' o, M.exec s i = .ok (s', o) → M.Steps C s' is := fun h' => h ⟨hc, h'⟩
      simp only [not_forall] at hn
      obtain ⟨s', o, he, hs⟩ := hn
      obtain ⟨pre, j, post, t, rfl, hr, hp, hj⟩ := ih hs
      refine ⟨i :: pre, j, post, t, rfl, (run_cons_ok he pre).trans hr, ⟨hc, ?_⟩, hj⟩
      intro s'' o' he'
      obtain ⟨rfl, -⟩ := Prod.ext_iff.mp (Except.ok.inj (he.symm.trans he'))
      exact hp
    · exact ⟨[], i, is, s, rfl, rfl, trivial, hc⟩

/-- A run stops at a step that does not complete. -/
theorem run_error_iff_exists {s : σ} {is : List ι} {e : ε} : M.run s is = .error e ↔
    ∃ pre i post t, is = pre ++ i :: post ∧ M.run s pre = .ok t ∧ M.exec t i = .error e := by
  constructor
  · intro h
    induction is generalizing s with
    | nil => cases h
    | cons i is ih =>
      cases he : M.exec s i with
      | error e' =>
        simp only [run, he, Except.error.injEq] at h
        exact ⟨[], i, is, s, rfl, rfl, h ▸ he⟩
      | ok r =>
        obtain ⟨s', o⟩ := r
        rw [run_cons_ok he] at h
        obtain ⟨pre, j, post, t, rfl, hr, hj⟩ := ih h
        exact ⟨i :: pre, j, post, t, rfl, (run_cons_ok he pre).trans hr, hj⟩
  · rintro ⟨pre, i, post, t, rfl, hr, he⟩
    rw [run_append hr, run, he]

/-- The two parts of a run that does not stop. -/
theorem run_append_inv {s u : σ} {is js : List ι} (h : M.run s (is ++ js) = .ok u) :
    ∃ t, M.run s is = .ok t ∧ M.run t js = .ok u := by
  induction is generalizing s with
  | nil => exact ⟨s, rfl, h⟩
  | cons i is ih =>
    obtain ⟨s', o, he, hr⟩ := run_cons_inv h
    obtain ⟨t, ht, hu⟩ := ih hr
    exact ⟨t, (run_cons_ok he is).trans ht, hu⟩

/-! ## History variables -/

section History

variable {γ : Type*}

/-- The machine beside a value that is updated from the state before and the input, and that no
step reads. -/
def withHistory (M : Machine σ ι ρ ε) (f : σ → ι → γ → γ) : Machine (σ × γ) ι ρ ε where
  exec x i :=
    match M.exec x.1 i with
    | .ok (s, o) => .ok ((s, f x.1 i x.2), o)
    | .error e => .error e

variable {f : σ → ι → γ → γ}

theorem withHistory_ok {s s' : σ} {i : ι} {o : ρ} (h : M.exec s i = .ok (s', o)) (g : γ) :
    (M.withHistory f).exec (s, g) i = .ok ((s', f s i g), o) := by
  simp only [withHistory, h]

theorem withHistory_inv {s : σ} {g : γ} {i : ι} {x : σ × γ} {o : ρ}
    (h : (M.withHistory f).exec (s, g) i = .ok (x, o)) :
    M.exec s i = .ok (x.1, o) ∧ x.2 = f s i g := by
  cases he : M.exec s i with
  | error e => simp [withHistory, he] at h
  | ok r =>
    cases h.symm.trans (withHistory_ok he g)
    exact ⟨rfl, rfl⟩

/-- **A run goes the same way with its history beside it.** -/
theorem steps_withHistory {R : σ → ι → Prop} {s : σ} {g : γ} {is : List ι} :
    (M.withHistory f).Steps (fun x i _ => R x.1 i) (s, g) is ↔
      M.Steps (fun s i _ => R s i) s is := by
  induction is generalizing s g with
  | nil => exact Iff.rfl
  | cons i is ih =>
    refine and_congr_right fun _ => ⟨fun h s' o he => ?_, fun h x o he => ?_⟩
    · exact ih.mp (h _ o (withHistory_ok he g))
    · exact ih.mpr (h x.1 o (withHistory_inv he).1)

end History

end Machine

end Camerasp.Lib
