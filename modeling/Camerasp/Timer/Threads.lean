import Camerasp.Lib.Pool
import Camerasp.Timer.Model

/-!
# The capture timer on the worker threads (`timer.cpp`, `simple_http_server.cpp`)

`Model.lean` takes each call as one event. Here the calls are cut into the steps that other threads
can come between, and the timer's waits are followed from `async_wait` to the handler:

* A wait is `waiting` until the timer expires or `expires_at` cancels it. Then its handler is
  `ready`, with the `error_code` it will be passed, until one of the worker threads invokes it.
  `handle_timeout` does not look at the code.
* A `handle_timeout` that has found `quitFlag` down is `running`, at a `Stage` of its own. The
  stage holds its locals, and its image for as long as it has not been published.
* A `save_file` is one of `saves` from `asio::post` to its last statement, in the order they were
  posted. Its `image` is what the run that posted it had captured; no code reads it.
* A call of `setTimer` is one of `setters` until its `async_wait`.

An `Action` is the next step of one of them; an index that no task has is no step. Actions come in
any order, and `expire` and the times are anything, so a run is any interleaving of the threads.
Not followed: `grabPicture` from inside (`call` is what it gets from the camera), and the bytes of
a file while `save_image` writes them.

Results: `exec_taken` (what a step can do), and that calls which nobody comes between are the
events of `Model.lean` (`handler_alone`, `save_alone`, `setter_alone`).
-/

namespace Camerasp.Timer

open Camerasp.Lib

/-- The threads that run the `io_context`: two workers and `main`. -/
abbrev workers : Nat := 3

/-- How far a `handle_timeout` is that has found `quitFlag` down: what it has done last. -/
inductive Stage
  | entered
  | grabbing (current : Int) (next : Slot)
  | swapped (current : Int) (next : Slot) (image : Buffer)
  | counted (current : Int) (next : Slot) (image : Buffer) (filesInQueue : Int32)
  | decided (current : Int) (image : Buffer)
  | bumped (current : Int) (image : Buffer)
  | advanced (current : Int)
  | rescheduled (current : Int)
  | moved

/-- A `handle_timeout`. Its `error_code` is `operation_aborted` where its wait was cancelled. -/
structure Handler where
  aborted : Bool
  stage : Stage

/-- How far a `save_file` is; from its copy on, with its `buffer`. -/
inductive SaveStage
  | posted
  | copied (buffer : Buffer)
  | opened (buffer : Buffer)
  | written

/-- A `save_file`. -/
structure Save where
  slot : Slot
  image : Buffer
  stage : SaveStage

/-- What a call of `setTimer` has done last: `quitFlag = 0`, `prev = now()`, or `expires_at`. -/
inductive Setter
  | cleared
  | timed
  | rescheduled

/-- The globals of `timer.cpp`, the timer, the files written, and the calls under way. -/
structure Process where
  imagebuffers : Slot → Buffer
  curImg : UInt32
  curImg_lt : curImg < maxSize
  currentCount : Int32
  pendingCount : Int32
  quitFlag : Bool
  prev : Int
  expiresAt : Option Int
  files : String → Option Buffer
  waiting : Nat
  /-- Whether the wait was cancelled, for each handler to be invoked. -/
  ready : List Bool
  setters : List Setter
  running : List Handler
  saves : List Save

theorem zero_lt_maxSize : (0 : UInt32) < maxSize := by decide

/-- The process at program start. -/
def Process.init : Process where
  imagebuffers _ := []
  curImg := 0
  curImg_lt := zero_lt_maxSize
  currentCount := 0
  pendingCount := 0
  quitFlag := false
  prev := 0
  expiresAt := none
  files _ := none
  waiting := 0
  ready := []
  setters := []
  running := []
  saves := []

/-- What a step does that the properties of a run are about. -/
inductive Output
  | quiet
  /-- The image has been swapped into the slot. -/
  | swapped (slot : Slot) (image : Buffer)
  /-- A save of the slot has been posted, after the image was swapped into it. -/
  | posted (slot : Slot) (image : Buffer)
  /-- `curImg` has moved past the image. -/
  | published (image : Buffer)
  /-- A save of the slot, posted after `image` was swapped into it, has written `buffer`. -/
  | wrote (slot : Slot) (image buffer : Buffer)

/-! ## The steps of the calls -/

section Steps

variable {γ : Type*}

/-- `expires_at`: pending waits are cancelled. -/
def Process.reschedule (p : Process) (time : Int) : Process :=
  { p with
    expiresAt := some time
    waiting := 0
    ready := p.ready ++ List.replicate p.waiting true }

/-- `next = curImg`. -/
def Process.next (p : Process) : Slot :=
  ⟨p.curImg.toNat, UInt32.lt_iff_toNat_lt.mp p.curImg_lt⟩

/-- The next step of a `setTimer`, and what is left of it. -/
def stepSetter (cfg : Config) (now : Int) (p : Process) : Setter → Process × Option Setter
  | .cleared => ({ p with prev := now }, some .timed)
  | .timed => (p.reschedule (p.prev + cfg.samplingPeriod), some .rescheduled)
  | .rescheduled => ({ p with waiting := p.waiting + 1 }, none)

/-- The next step of a `handle_timeout`, and what is left of it. -/
def stepHandler (cfg : Config) (grabPicture : γ → Buffer) (now : Int) (call : γ) (p : Process) :
    Stage → Process × Option Stage × Output
  | .entered => (p, some (.grabbing now p.next), .quiet)
  | .grabbing current next =>
    let buffer := grabPicture call
    ({ p with imagebuffers := Function.update p.imagebuffers next buffer },
      some (.swapped current next buffer), .swapped next buffer)
  | .swapped current next image =>
    ({ p with pendingCount := p.pendingCount + 1 },
      some (.counted current next image (p.pendingCount + 1)), .quiet)
  | .counted current next image filesInQueue =>
    if postsSave cfg filesInQueue then
      ({ p with saves := p.saves ++ [⟨next, image, .posted⟩] }, some (.decided current image),
        .posted next image)
    else ({ p with pendingCount := p.pendingCount - 1 }, some (.decided current image), .quiet)
  | .decided current image =>
    ({ p with
        currentCount :=
          if p.currentCount.toUInt32 < maxSize then p.currentCount + 1 else p.currentCount },
      some (.bumped current image), .quiet)
  | .bumped current image =>
    ({ p with curImg := (p.curImg + 1) % maxSize, curImg_lt := mod_maxSize_lt _ },
      some (.advanced current), .published image)
  | .advanced current =>
    (p.reschedule (p.prev + 2 * cfg.samplingPeriod), some (.rescheduled current), .quiet)
  | .rescheduled current => ({ p with prev := current }, some .moved, .quiet)
  | .moved => ({ p with waiting := p.waiting + 1 }, none, .quiet)

/-- The next step of a `save_file`, and what is left of it. A file that is opened is empty; the
bytes written lie over what has come there since. -/
def stepSave (cfg : Config) (opens : Bool) (p : Process) (v : Save) :
    Process × Option Save × Output :=
  match v.stage with
  | .posted => (p, some { v with stage := .copied (p.imagebuffers v.slot) }, .quiet)
  | .copied buffer =>
    if opens then
      ({ p with files := Function.update p.files (fileName cfg v.slot) (some []) },
        some { v with stage := .opened buffer }, .quiet)
    else (p, some { v with stage := .written }, .quiet)
  | .opened buffer =>
    let rest := ((p.files (fileName cfg v.slot)).getD []).drop buffer.length
    ({ p with files := Function.update p.files (fileName cfg v.slot) (some (buffer ++ rest)) },
      some { v with stage := .written }, .wrote v.slot v.image buffer)
  | .written => ({ p with pendingCount := p.pendingCount - 1 }, none, .quiet)

/-- A `setTimer` touches the timer only. -/
theorem stepSetter_frame (cfg : Config) (now : Int) (p : Process) (s : Setter) :
    ∃ prev expiresAt waiting ready, (stepSetter cfg now p s).1 =
      { p with prev := prev, expiresAt := expiresAt, waiting := waiting, ready := ready } := by
  cases s <;> exact ⟨_, _, _, _, rfl⟩

/-- A `handle_timeout` calls no `setTimer`, and writes no file. -/
theorem stepHandler_frame {γ : Type*} (cfg : Config) (grabPicture : γ → Buffer) (now : Int)
    (call : γ) (p : Process) (stage : Stage) :
    (stepHandler cfg grabPicture now call p stage).1.setters = p.setters ∧
      (stepHandler cfg grabPicture now call p stage).1.files = p.files := by
  cases stage with
  | counted current next image filesInQueue =>
    by_cases hg : postsSave cfg filesInQueue <;> simp [stepHandler, hg]
  | _ => exact ⟨rfl, rfl⟩

/-- A `save_file` touches the files and its count only. -/
theorem stepSave_frame (cfg : Config) (opens : Bool) (p : Process) (v : Save) :
    ∃ files pendingCount, (stepSave cfg opens p v).1 =
      { p with files := files, pendingCount := pendingCount } := by
  obtain ⟨slot, image, stage⟩ := v
  cases stage with
  | copied buffer => cases opens <;> exact ⟨_, _, rfl⟩
  | _ => exact ⟨_, _, rfl⟩

end Steps

/-! ## Runs -/

/-- The next step of some thread. -/
inductive Action (γ : Type*)
  /-- `setTimer` is called, and puts `quitFlag` down. -/
  | setTimer
  | setter (i : Nat) (now : Int)
  | stopCapture
  /-- The timer's expiry has come. -/
  | expire
  /-- A thread that is free invokes a ready handler, which looks at `quitFlag`. -/
  | invoke (i : Nat)
  | handler (i : Nat) (now : Int) (call : γ)
  | save (i : Nat) (opens : Bool)

section Machine

variable {γ : Type*}

/-- The program's threads: `Action`s in any order. -/
def threads (cfg : Config) (grabPicture : γ → Buffer) :
    Machine Process (Action γ) Output Empty where
  exec p
    | .setTimer => .ok ({ p with quitFlag := false, setters := p.setters ++ [.cleared] }, .quiet)
    | .setter i now =>
      match p.setters[i]? with
      | none => .ok (p, .quiet)
      | some s =>
        let (p', s') := stepSetter cfg now p s
        .ok ({ p' with setters := replaceAt p.setters i s' }, .quiet)
    | .stopCapture => .ok ({ p with quitFlag := true }, .quiet)
    | .expire =>
      .ok ({ p with waiting := 0, ready := p.ready ++ List.replicate p.waiting false }, .quiet)
    | .invoke i =>
      match p.ready[i]? with
      | none => .ok (p, .quiet)
      | some aborted =>
        if p.running.length < workers then
          let p := { p with ready := replaceAt p.ready i none }
          .ok (if p.quitFlag then p else { p with running := p.running ++ [⟨aborted, .entered⟩] },
            .quiet)
        else .ok (p, .quiet)
    | .handler i now call =>
      match p.running[i]? with
      | none => .ok (p, .quiet)
      | some h =>
        let (p', stage, o) := stepHandler cfg grabPicture now call p h.stage
        .ok ({ p' with running := replaceAt p.running i (stage.map (Handler.mk h.aborted)) }, o)
    | .save i opens =>
      match p.saves[i]? with
      | none => .ok (p, .quiet)
      | some v =>
        let (p', v', o) := stepSave cfg opens p v
        .ok ({ p' with saves := replaceAt p.saves i v' }, o)

variable (cfg : Config) (grabPicture : γ → Buffer) (p : Process)

/-- What an action does, with the task it is about between the others. -/
inductive Taken : Action γ → Process → Output → Prop
  | idle (a : Action γ) : Taken a p .quiet
  | setTimer :
    Taken .setTimer { p with quitFlag := false, setters := p.setters ++ [.cleared] } .quiet
  | setter (pre post : List Setter) (s : Setter) (now : Int) (h : p.setters = pre ++ s :: post) :
    Taken (.setter pre.length now)
      { (stepSetter cfg now p s).1 with
        setters := pre ++ ((stepSetter cfg now p s).2.toList ++ post) } .quiet
  | stopCapture : Taken .stopCapture { p with quitFlag := true } .quiet
  | expire : Taken .expire
      { p with waiting := 0, ready := p.ready ++ List.replicate p.waiting false } .quiet
  | enter (pre post : List Bool) (aborted : Bool) (h : p.ready = pre ++ aborted :: post)
    (hfree : p.running.length < workers) (hquit : p.quitFlag = false) :
    Taken (.invoke pre.length)
      { p with ready := pre ++ post, running := p.running ++ [⟨aborted, .entered⟩] } .quiet
  | leave (pre post : List Bool) (aborted : Bool) (h : p.ready = pre ++ aborted :: post)
    (hfree : p.running.length < workers) (hquit : p.quitFlag = true) :
    Taken (.invoke pre.length) { p with ready := pre ++ post } .quiet
  | handler (pre post : List Handler) (aborted : Bool) (stage : Stage) (now : Int) (call : γ)
    (h : p.running = pre ++ ⟨aborted, stage⟩ :: post) :
    Taken (.handler pre.length now call)
      { (stepHandler cfg grabPicture now call p stage).1 with
        running := pre ++ (((stepHandler cfg grabPicture now call p stage).2.1.map
          (Handler.mk aborted)).toList ++ post) }
      (stepHandler cfg grabPicture now call p stage).2.2
  | save (pre post : List Save) (v : Save) (opens : Bool) (h : p.saves = pre ++ v :: post) :
    Taken (.save pre.length opens)
      { (stepSave cfg opens p v).1 with
        saves := pre ++ ((stepSave cfg opens p v).2.1.toList ++ post) }
      (stepSave cfg opens p v).2.2

variable {cfg grabPicture p}

/-- **Every step is one of these.** -/
theorem exec_taken {p' : Process} {a : Action γ} {o : Output}
    (h : (threads cfg grabPicture).exec p a = .ok (p', o)) : Taken cfg grabPicture p a p' o := by
  cases a with
  | setTimer => cases h; exact .setTimer
  | setter i now =>
    cases hs : p.setters[i]? with
    | none =>
      simp only [threads, hs] at h
      cases h
      exact .idle _
    | some s =>
      obtain ⟨pre, post, hl, rfl, hr⟩ := exists_split hs
      simp only [threads, hs, hr] at h
      cases h
      exact .setter pre post s now hl
  | stopCapture => cases h; exact .stopCapture
  | expire => cases h; exact .expire
  | invoke i =>
    cases hs : p.ready[i]? with
    | none =>
      simp only [threads, hs] at h
      cases h
      exact .idle _
    | some aborted =>
      obtain ⟨pre, post, hl, rfl, hr⟩ := exists_split hs
      simp only [threads, hs, hr, Option.toList_none, List.nil_append] at h
      split_ifs at h with hfree hquit
      · cases h
        exact .leave pre post aborted hl hfree hquit
      · cases h
        exact .enter pre post aborted hl hfree (by simpa using hquit)
      · cases h
        exact .idle _
  | handler i now call =>
    cases hs : p.running[i]? with
    | none =>
      simp only [threads, hs] at h
      cases h
      exact .idle _
    | some t =>
      obtain ⟨pre, post, hl, rfl, hr⟩ := exists_split hs
      simp only [threads, hs, hr] at h
      cases h
      exact .handler pre post t.aborted t.stage now call hl
  | save i opens =>
    cases hs : p.saves[i]? with
    | none =>
      simp only [threads, hs] at h
      cases h
      exact .idle _
    | some v =>
      obtain ⟨pre, post, hl, rfl, hr⟩ := exists_split hs
      simp only [threads, hs, hr] at h
      cases h
      exact .save pre post v opens hl

end Machine

/-! ## Calls that nobody comes between -/

/-- The slot of a save that has not begun. -/
def Save.task (v : Save) : Option Slot :=
  match v.stage with
  | .posted => some v.slot
  | _ => none

/-- What the events of `Model.lean` work on. -/
def Process.state (p : Process) : State where
  imagebuffers := p.imagebuffers
  curImg := p.curImg
  curImg_lt := p.curImg_lt
  currentCount := p.currentCount
  pendingCount := p.pendingCount
  quitFlag := p.quitFlag
  prev := p.prev
  expiresAt := p.expiresAt
  posted := p.saves.filterMap Save.task
  files := p.files

section Alone

variable {γ : Type*} {cfg : Config} {grabPicture : γ → Buffer} {p : Process}

theorem exec_handler {pre post : List Handler} {aborted : Bool} {stage : Stage}
    (h : p.running = pre ++ ⟨aborted, stage⟩ :: post) (now : Int) (call : γ) :
    (threads cfg grabPicture).exec p (.handler pre.length now call) = .ok
      ({ (stepHandler cfg grabPicture now call p stage).1 with
          running := pre ++ (((stepHandler cfg grabPicture now call p stage).2.1.map
            (Handler.mk aborted)).toList ++ post) },
        (stepHandler cfg grabPicture now call p stage).2.2) := by
  simp only [threads, getElem?_split h]
  rw [h, replaceAt_append]

theorem exec_save {pre post : List Save} {v : Save} (h : p.saves = pre ++ v :: post)
    (opens : Bool) : (threads cfg grabPicture).exec p (.save pre.length opens) = .ok
      ({ (stepSave cfg opens p v).1 with
          saves := pre ++ ((stepSave cfg opens p v).2.1.toList ++ post) },
        (stepSave cfg opens p v).2.2) := by
  simp only [threads, getElem?_split h]
  rw [h, replaceAt_append]

theorem exec_setter {pre post : List Setter} {s : Setter} (h : p.setters = pre ++ s :: post)
    (now : Int) : (threads cfg grabPicture).exec p (.setter pre.length now) = .ok
      ({ (stepSetter cfg now p s).1 with
          setters := pre ++ ((stepSetter cfg now p s).2.toList ++ post) }, .quiet) := by
  simp only [threads, getElem?_split h]
  rw [h, replaceAt_append]

theorem exec_enter {pre post : List Bool} {aborted : Bool} (h : p.ready = pre ++ aborted :: post)
    (hfree : p.running.length < workers) (hquit : p.quitFlag = false) :
    (threads cfg grabPicture).exec p (.invoke pre.length) = .ok
      ({ p with ready := pre ++ post, running := p.running ++ [⟨aborted, .entered⟩] },
        .quiet) := by
  simp only [threads, getElem?_split h, if_pos hfree, hquit, Bool.false_eq_true, if_false]
  rw [h, replaceAt_append]
  rfl

section Handler

variable {pre post : List Handler} {aborted : Bool} (now : Int) (call : γ)

/-- From its test of `quitFlag` to `++pending_count`. -/
theorem run_until_counted (h : p.running = pre ++ ⟨aborted, .entered⟩ :: post) :
    (threads cfg grabPicture).run p (List.replicate 3 (.handler pre.length now call)) = .ok
      { p with
        imagebuffers := Function.update p.imagebuffers p.next (grabPicture call)
        pendingCount := p.pendingCount + 1
        running := pre ++
          ⟨aborted, .counted now p.next (grabPicture call) (p.pendingCount + 1)⟩ :: post } := by
  simp only [List.replicate]
  rw [Machine.run_cons_ok (exec_handler h now call),
    Machine.run_cons_ok (exec_handler rfl now call),
    Machine.run_cons_ok (exec_handler rfl now call)]
  rfl

/-- The decision. -/
theorem run_decision {current : Int} {next : Slot} {image : Buffer} {filesInQueue : Int32}
    (h : p.running = pre ++ ⟨aborted, .counted current next image filesInQueue⟩ :: post) :
    (threads cfg grabPicture).run p [.handler pre.length now call] = .ok
      { p with
        pendingCount := if postsSave cfg filesInQueue then p.pendingCount else p.pendingCount - 1
        saves := if postsSave cfg filesInQueue then p.saves ++ [⟨next, image, .posted⟩] else p.saves
        running := pre ++ ⟨aborted, .decided current image⟩ :: post } := by
  rw [Machine.run_cons_ok (exec_handler h now call)]
  by_cases hposts : postsSave cfg filesInQueue
  · simp only [stepHandler, if_pos hposts]
    rfl
  · simp only [stepHandler, if_neg hposts]
    rfl

/-- From the decision to the next `async_wait`. -/
theorem run_from_decided {current : Int} {image : Buffer}
    (h : p.running = pre ++ ⟨aborted, .decided current image⟩ :: post) :
    (threads cfg grabPicture).run p (List.replicate 5 (.handler pre.length now call)) = .ok
      { p with
        currentCount :=
          if p.currentCount.toUInt32 < maxSize then p.currentCount + 1 else p.currentCount
        curImg := (p.curImg + 1) % maxSize
        curImg_lt := mod_maxSize_lt _
        expiresAt := some (p.prev + 2 * cfg.samplingPeriod)
        prev := current
        waiting := 1
        ready := p.ready ++ List.replicate p.waiting true
        running := pre ++ post } := by
  simp only [List.replicate]
  rw [Machine.run_cons_ok (exec_handler h now call),
    Machine.run_cons_ok (exec_handler rfl now call),
    Machine.run_cons_ok (exec_handler rfl now call),
    Machine.run_cons_ok (exec_handler rfl now call),
    Machine.run_cons_ok (exec_handler rfl now call)]
  rfl

/-- **A `handle_timeout` on its own is the event `timeout`.** -/
theorem handler_alone (h : p.running = pre ++ ⟨aborted, .entered⟩ :: post)
    (hquit : p.quitFlag = false) : ∃ p', (threads cfg grabPicture).run p
        (List.replicate 9 (.handler pre.length now call)) = .ok p' ∧
      p'.state = (handleTimeout cfg grabPicture now call p.state).1 ∧ p'.running = pre ++ post := by
  have hq : ¬ p.state.quitFlag := Bool.eq_false_iff.mp hquit
  refine ⟨_, (Machine.run_append (run_until_counted now call h) (.handler pre.length now call ::
    List.replicate 5 (.handler pre.length now call))).trans
      ((Machine.run_append (run_decision now call rfl) _).trans (run_from_decided now call rfl)),
    ?_, rfl⟩
  rw [handleTimeout, if_neg hq]
  by_cases hposts : postsSave cfg (p.pendingCount + 1)
  · simp only [Process.state, hposts, if_true, List.filterMap_append]
    rfl
  · simp only [Process.state, hposts, Bool.false_eq_true, if_false]
    rfl

end Handler

section Save

variable {pre post : List Save} {slot : Slot} {image : Buffer}

/-- From its copy to `--pending_count`; a file that cannot be opened is a step less. -/
theorem run_save (h : p.saves = pre ++ ⟨slot, image, .posted⟩ :: post) (opens : Bool) :
    (threads cfg grabPicture).run p
        (List.replicate (if opens then 4 else 3) (.save pre.length opens)) = .ok
      { p with
        files := saveImage opens (p.imagebuffers slot) (fileName cfg slot) p.files
        pendingCount := p.pendingCount - 1
        saves := pre ++ post } := by
  cases opens with
  | true =>
    simp only [if_true, List.replicate]
    rw [Machine.run_cons_ok (exec_save h true), Machine.run_cons_ok (exec_save rfl true),
      Machine.run_cons_ok (exec_save rfl true), Machine.run_cons_ok (exec_save rfl true)]
    simp only [stepSave, if_true, Function.update_self, Function.update_idem, Option.getD_some,
      List.drop_nil, List.append_nil]
    rfl
  | false =>
    simp only [Bool.false_eq_true, if_false, List.replicate]
    rw [Machine.run_cons_ok (exec_save h false), Machine.run_cons_ok (exec_save rfl false),
      Machine.run_cons_ok (exec_save rfl false)]
    rfl

/-- **A `save_file` on its own is the event `save`**, of the task that comes after the tasks of the
saves before it. -/
theorem save_alone (h : p.saves = pre ++ ⟨slot, image, .posted⟩ :: post) (opens : Bool) :
    ∃ p', (threads cfg grabPicture).run p
        (List.replicate (if opens then 4 else 3) (.save pre.length opens)) = .ok p' ∧
      p'.state = runPosted cfg (pre.filterMap Save.task).length opens p.state ∧
        p'.saves = pre ++ post := by
  have htask : p.state.posted[(pre.filterMap Save.task).length]? = some slot := by
    simp [Process.state, h, Save.task]
  have herase : p.state.posted.eraseIdx (pre.filterMap Save.task).length =
      (pre ++ post).filterMap Save.task := by
    simp [Process.state, h, Save.task, List.eraseIdx_append_of_length_le]
  refine ⟨_, run_save h opens, ?_, rfl⟩
  unfold runPosted
  simp only [htask, herase]
  rfl

end Save

/-- **A `setTimer` on its own is the event `setTimer`.** -/
theorem setter_alone (p : Process) (now : Int) : ∃ p', (threads cfg grabPicture).run p
      (.setTimer :: List.replicate 3 (.setter p.setters.length now)) = .ok p' ∧
    p'.state = setTimer cfg now p.state ∧ p'.setters = p.setters := by
  have hcall : (threads cfg grabPicture).exec p .setTimer =
      .ok ({ p with quitFlag := false, setters := p.setters ++ [.cleared] }, .quiet) := rfl
  simp only [List.replicate]
  rw [Machine.run_cons_ok hcall, Machine.run_cons_ok (exec_setter rfl now),
    Machine.run_cons_ok (exec_setter rfl now), Machine.run_cons_ok (exec_setter rfl now)]
  exact ⟨_, rfl, rfl, List.append_nil _⟩

end Alone

end Camerasp.Timer
