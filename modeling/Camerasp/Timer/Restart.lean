import Camerasp.Timer.Threads

/-!
# One `handle_timeout` at a time

A timer that is armed once wakes one `handle_timeout` after the other: each arms the timer again at
its end. `setTimer` arms it without looking whether one is still pending, and `expires_at` cancels
a pending wait but not its handler, which is invoked all the same and does not look at its error
code. So a restart can leave two chains of captures behind.

Results:
* `single_iff`: at most one `handle_timeout` is pending or running, and none is running for a wait
  that was cancelled, exactly when every `async_wait` of `setTimer` finds none pending or running
  and every handler of a cancelled wait finds `quitFlag` up.
* `steps_alone_of_fresh`: as it is where `setTimer` is called only when nothing is pending, running
  or being armed; in particular with a single call (`steps_alone_of_once`), as in `main`.
-/

namespace Camerasp.Timer

open Camerasp.Lib

variable {γ : Type*} {cfg : Config} {grabPicture : γ → Buffer} {p p' : Process} {a : Action γ}
  {o : Output}

/-- How many `handle_timeout`s are pending or running. -/
def Process.alive (p : Process) : Nat := p.waiting + p.ready.length + p.running.length

/-- At most one `handle_timeout` is pending or running, and one that runs, and so captures, was not
invoked because its wait was cancelled. -/
structure Single (p : Process) : Prop where
  one : p.alive ≤ 1
  uncancelled : ∀ h ∈ p.running, h.aborted = false

/-- The `async_wait` of a `setTimer` finds no `handle_timeout` pending or running, and the handler
of a cancelled wait finds `quitFlag` up. -/
structure Alone (p : Process) (a : Action γ) : Prop where
  arms : ∀ i now, a = .setter i now → p.setters[i]? = some .rescheduled → p.alive = 0
  cancelled : ∀ i, a = .invoke i → p.ready[i]? = some true → p.quitFlag = true

/-! ## The steps -/

@[simp] theorem reschedule_alive (p : Process) (time : Int) :
    (p.reschedule time).alive = p.alive := by
  simp [Process.alive, Process.reschedule]
  omega

/-- A running handler stays one handler, until its `async_wait` leaves a wait. -/
theorem alive_handler {pre post : List Handler} {aborted : Bool} {stage : Stage} (now : Int)
    (call : γ) (h : p.running = pre ++ ⟨aborted, stage⟩ :: post) :
    Process.alive { (stepHandler cfg grabPicture now call p stage).1 with
      running := pre ++ (((stepHandler cfg grabPicture now call p stage).2.1.map
        (Handler.mk aborted)).toList ++ post) } = p.alive := by
  have hlen : p.running.length = pre.length + post.length + 1 := by
    rw [h, List.length_append, List.length_cons, Nat.add_assoc]
  cases stage with
  | counted current next image filesInQueue =>
    by_cases hg : postsSave cfg filesInQueue <;>
      simp [stepHandler, hg, Process.alive, hlen] <;> omega
  | _ => simp [stepHandler, Process.alive, Process.reschedule, hlen]; omega

/-- **Only the `async_wait` of a `setTimer` adds to the handlers alive.** -/
theorem alive_taken (h : Taken cfg grabPicture p a p' o) :
    p'.alive ≤ p.alive ∨ p'.alive = p.alive + 1 ∧
      ∃ i now, a = .setter i now ∧ p.setters[i]? = some .rescheduled := by
  cases h with
  | setter pre post s now h =>
    cases s with
    | cleared => exact .inl (Nat.le_refl _)
    | timed =>
      exact .inl (Nat.le_of_eq (reschedule_alive p (p.prev + cfg.samplingPeriod)))
    | rescheduled =>
      refine .inr ⟨?_, _, _, rfl, getElem?_split h⟩
      show p.waiting + 1 + p.ready.length + p.running.length = _
      unfold Process.alive
      omega
  | expire =>
    refine .inl (Nat.le_of_eq ?_)
    simp [Process.alive]
    omega
  | enter pre post aborted h hfree hquit =>
    refine .inl (Nat.le_of_eq ?_)
    simp [Process.alive, h]
    omega
  | leave pre post aborted h hfree hquit =>
    refine .inl ?_
    simp [Process.alive, h]
  | handler pre post aborted stage now call h =>
    exact .inl (Nat.le_of_eq (alive_handler now call h))
  | save pre post v opens h =>
    obtain ⟨files, n, hs⟩ := stepSave_frame cfg opens p v
    refine .inl (Nat.le_of_eq ?_)
    rw [hs]
    rfl
  | _ => exact .inl (Nat.le_refl _)

/-- Only the handler of a cancelled wait that finds `quitFlag` down runs for one. -/
theorem uncancelled_taken (h : Taken cfg grabPicture p a p' o)
    (hu : ∀ t ∈ p.running, t.aborted = false)
    (hc : ∀ i, a = .invoke i → p.ready[i]? = some true → p.quitFlag = true) :
    ∀ t ∈ p'.running, t.aborted = false := by
  cases h with
  | setter pre post s now h =>
    obtain ⟨prev, expiresAt, waiting, ready, hs⟩ := stepSetter_frame cfg now p s
    rw [hs]
    exact hu
  | enter pre post aborted h hfree hquit =>
    intro t ht
    rcases List.mem_append.mp ht with ht | ht
    · exact hu t ht
    · obtain rfl := List.mem_singleton.mp ht
      cases haborted : aborted with
      | false => rfl
      | true =>
        rw [haborted] at h
        rw [hc _ rfl (getElem?_split h)] at hquit
        cases hquit
  | handler pre post aborted stage now call h =>
    intro t ht
    rcases mem_replaced h ht with ht | ht
    · exact hu t ht
    · obtain ⟨s, -, rfl⟩ := Option.map_eq_some_iff.mp ht
      exact hu ⟨aborted, stage⟩ (h ▸ List.mem_append_right _ List.mem_cons_self)
  | save pre post v opens h =>
    obtain ⟨files, n, hs⟩ := stepSave_frame cfg opens p v
    rw [hs]
    exact hu
  | _ => exact hu

/-- **A step keeps one `handle_timeout` exactly when it is taken `Alone`.** -/
theorem single_step (hs : Single p) (a : Action γ) : Alone p a ↔
    ∀ p' o, (threads cfg grabPicture).exec p a = .ok (p', o) → Single p' := by
  constructor
  · intro ha p' o he
    have h := exec_taken he
    refine ⟨?_, uncancelled_taken h hs.uncancelled ha.cancelled⟩
    rcases alive_taken h with hle | ⟨hadd, i, now, rfl, harms⟩
    · exact Nat.le_trans hle hs.one
    · exact Nat.le_of_eq (hadd.trans (congrArg (· + 1) (ha.arms i now rfl harms)))
  · intro h
    refine ⟨fun i now ha harms => ?_, fun i ha haborted => ?_⟩
    · obtain ⟨pre, post, hsplit, rfl, -⟩ := exists_split harms
      rw [ha] at h
      have hone := (h _ _ (exec_setter hsplit now)).one
      have hadd : p.waiting + 1 + p.ready.length + p.running.length ≤ 1 := hone
      unfold Process.alive
      omega
    · obtain ⟨pre, post, hsplit, rfl, -⟩ := exists_split haborted
      have hone := hs.one
      unfold Process.alive at hone
      rw [hsplit, List.length_append, List.length_cons] at hone
      by_contra hquit
      rw [ha] at h
      have hnew := (h _ _ (exec_enter hsplit (show p.running.length < 3 by omega)
        (by simpa using hquit))).uncancelled ⟨true, .entered⟩ (by simp)
      cases hnew

theorem single_init : Single Process.init where
  one := Nat.zero_le 1
  uncancelled _ ht := absurd ht List.not_mem_nil

/-- **One `handle_timeout` at a time, and none for a cancelled wait, exactly when `setTimer` arms
the timer only when there is none and the handlers of cancelled waits find `quitFlag` up.** -/
theorem single_iff (cfg : Config) (grabPicture : γ → Buffer) (as : List (Action γ)) :
    (threads cfg grabPicture).Always Single Process.init as ↔
      (threads cfg grabPicture).Steps (fun p a _ => Alone p a) Process.init as :=
  Machine.always_iff_steps (P := Single) (fun _ a hs => single_step hs a) single_init as

/-- Start, stop and start again while the first wait is pending; then its handler is invoked. -/
def restarted : List (Action Buffer) :=
  [.setTimer, .setter 0 0, .setter 0 0, .setter 0 0, .stopCapture,
    .setTimer, .setter 0 5, .setter 0 5, .setter 0 5,
    .invoke 0, .handler 0 6 [], .handler 0 6 [7]]

/-- Two `handle_timeout`s are alive, and the one whose wait was cancelled has captured. -/
theorem not_single_restarted :
    ((threads ⟨10, 100, "img"⟩ id).run Process.init restarted).map
        (fun p => (p.alive, p.running.map Handler.aborted)) = .ok (2, [true]) ∧
      ((threads ⟨10, 100, "img"⟩ id).log Process.init restarted).getLast? =
        some (.swapped 0 [7]) ∧
      ¬ (threads ⟨10, 100, "img"⟩ id).Always Single Process.init restarted := by
  refine ⟨rfl, rfl, fun h => ?_⟩
  have hone := (Machine.always_last h rfl).one
  exact absurd hone (by decide)

/-! ## Timers that are armed once -/

/-- `setTimer` is called when no `handle_timeout` is pending or running and no other `setTimer` is
under way. -/
def Fresh (p : Process) (a : Action γ) : Prop :=
  match a with
  | .setTimer => p.alive = 0 ∧ p.setters = []
  | _ => True

/-- The chains of captures there are, those that a `setTimer` is about to start included. -/
def Process.chains (p : Process) : Nat := p.alive + p.setters.length

/-- **Only a call of `setTimer` adds a chain.** -/
theorem chains_taken (h : Taken cfg grabPicture p a p' o) :
    a = .setTimer ∧ p'.chains = p.chains + 1 ∨ p'.chains ≤ p.chains := by
  unfold Process.chains
  cases h with
  | idle => exact .inr (Nat.le_refl _)
  | setTimer =>
    refine .inl ⟨rfl, ?_⟩
    rw [List.length_append]
    rfl
  | setter pre post s now h =>
    rw [h, List.length_append, List.length_append, List.length_append, List.length_cons]
    refine .inr ?_
    cases s with
    | cleared =>
      show p.alive + _ ≤ _
      simp [stepSetter]
      omega
    | timed =>
      show (p.reschedule (p.prev + cfg.samplingPeriod)).alive + _ ≤ _
      rw [reschedule_alive]
      simp [stepSetter]
      omega
    | rescheduled =>
      show p.waiting + 1 + p.ready.length + p.running.length + _ ≤ _
      simp [stepSetter, Process.alive]
      omega
  | stopCapture => exact .inr (Nat.le_refl _)
  | expire =>
    refine .inr ?_
    simp [Process.alive]
    omega
  | enter pre post aborted h hfree hquit =>
    refine .inr ?_
    simp [Process.alive, h]
    omega
  | leave pre post aborted h hfree hquit =>
    refine .inr ?_
    simp [Process.alive, h]
  | handler pre post aborted stage now call h =>
    refine .inr (Nat.le_of_eq ?_)
    rw [(stepHandler_frame cfg grabPicture now call p stage).1, alive_handler now call h]
  | save pre post v opens h =>
    obtain ⟨files, n, hs⟩ := stepSave_frame cfg opens p v
    rw [hs]
    exact .inr (Nat.le_refl _)

/-- At most one chain, and no wait that was cancelled. -/
structure Calm (p : Process) : Prop where
  one : p.chains ≤ 1
  clean : ∀ b ∈ p.ready, b = false

theorem calm_init : Calm Process.init where
  one := Nat.zero_le 1
  clean _ hb := absurd hb List.not_mem_nil

/-- An `expires_at` that finds no wait cancels none. -/
theorem ready_reschedule (hw : p.waiting = 0) (time : Int) :
    (p.reschedule time).ready = p.ready := by
  simp [Process.reschedule, hw]

/-- No wait is cancelled: the only chain has none when it arms the timer. -/
theorem Calm.clean_taken (hc : Calm p) (h : Taken cfg grabPicture p a p' o) :
    ∀ b ∈ p'.ready, b = false := by
  have hone := hc.one
  unfold Process.chains at hone
  cases h with
  | setter pre post s now h =>
    cases s with
    | timed =>
      have hw : p.waiting = 0 := by
        rw [h, List.length_append, List.length_cons, Process.alive] at hone
        omega
      show ∀ b ∈ (p.reschedule (p.prev + cfg.samplingPeriod)).ready, b = false
      rw [ready_reschedule hw]
      exact hc.clean
    | _ => exact hc.clean
  | expire =>
    intro b hb
    rcases List.mem_append.mp hb with hb | hb
    · exact hc.clean b hb
    · exact List.eq_of_mem_replicate hb
  | enter pre post aborted h hfree hquit =>
    intro b hb
    rcases mem_replaced (r := none) h hb with hb | hb
    · exact hc.clean b hb
    · cases hb
  | leave pre post aborted h hfree hquit =>
    intro b hb
    rcases mem_replaced (r := none) h hb with hb | hb
    · exact hc.clean b hb
    · cases hb
  | handler pre post aborted stage now call h =>
    cases stage with
    | counted current next image filesInQueue =>
      by_cases hg : postsSave cfg filesInQueue <;> simp only [stepHandler, hg] <;> exact hc.clean
    | advanced current =>
      have hw : p.waiting = 0 := by
        rw [Process.alive, h, List.length_append, List.length_cons] at hone
        omega
      show ∀ b ∈ (p.reschedule (p.prev + 2 * cfg.samplingPeriod)).ready, b = false
      rw [ready_reschedule hw]
      exact hc.clean
    | _ => exact hc.clean
  | save pre post v opens h =>
    obtain ⟨files, n, hs⟩ := stepSave_frame cfg opens p v
    rw [hs]
    exact hc.clean
  | _ => exact hc.clean

theorem Calm.taken (hc : Calm p) (hf : Fresh p a) (h : Taken cfg grabPicture p a p' o) :
    Calm p' := by
  refine ⟨?_, hc.clean_taken h⟩
  rcases chains_taken h with ⟨rfl, hadd⟩ | hle
  · obtain ⟨halive, hsetters⟩ := hf
    rw [hadd, Process.chains, halive, hsetters]
    exact Nat.le_refl 1
  · exact Nat.le_trans hle hc.one

theorem Calm.alone (hc : Calm p) (a : Action γ) : Alone p a := by
  refine ⟨fun i now _ harms => ?_, fun i _ haborted => ?_⟩
  · have hone := hc.one
    have hi := (List.getElem?_eq_some_iff.mp harms).1
    unfold Process.chains at hone
    omega
  · have hclean := hc.clean true (List.mem_of_getElem? haborted)
    cases hclean

/-- **Timers that are armed once keep one `handle_timeout`.** -/
theorem steps_alone_of_fresh {as : List (Action γ)}
    (h : (threads cfg grabPicture).Steps (fun p a _ => Fresh p a) Process.init as) :
    (threads cfg grabPicture).Steps (fun p a _ => Alone p a) Process.init as :=
  Machine.steps_of_inv (I := Calm) (fun _ a hc _ => hc.alone a)
    (fun _ _ _ _ hc hf he => hc.taken hf (exec_taken he)) calm_init h

def Action.isSetTimer : Action γ → Bool
  | .setTimer => true
  | _ => false

/-- A single `setTimer` is fresh. -/
theorem steps_fresh_of_once {as : List (Action γ)}
    (h : p.chains + as.countP Action.isSetTimer ≤ 1) :
    (threads cfg grabPicture).Steps (fun p a _ => Fresh p a) p as := by
  induction as generalizing p with
  | nil => trivial
  | cons a as ih =>
    rw [List.countP_cons] at h
    refine ⟨?_, fun p' o he => ih ?_⟩
    · cases a with
      | setTimer =>
        have hz : p.chains = 0 := by
          simp [Action.isSetTimer] at h
          omega
        unfold Process.chains at hz
        exact ⟨by omega, List.length_eq_zero_iff.mp (by omega)⟩
      | _ => trivial
    · rcases chains_taken (exec_taken he) with ⟨rfl, hadd⟩ | hle
      · simp [Action.isSetTimer] at h
        omega
      · omega

theorem steps_alone_of_once {as : List (Action γ)} (h : as.countP Action.isSetTimer ≤ 1) :
    (threads cfg grabPicture).Steps (fun p a _ => Alone p a) Process.init as := by
  have hchains : Process.init.chains = 0 := rfl
  refine steps_alone_of_fresh (steps_fresh_of_once ?_)
  rwa [hchains, Nat.zero_add]

end Camerasp.Timer
