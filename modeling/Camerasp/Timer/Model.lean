import Camerasp.Lib.Machine
import Mathlib.Data.List.ReduceOption
import Mathlib.Logic.Function.Basic

/-!
# The capture timer (`timer.cpp`)

The file's globals are one `State`: the ring `imagebuffers` with `curImg` and `currentCount`, the
count of saves under way, the timer's expiry and the tasks posted to the `io_context`. Its
functions are state transformers under their own names (`handle_timeout` is `handleTimeout`, and
so on); `unsigned int` is `UInt32` and `int` (with `std::atomic<int>`) is `Int32`, so every
comparison and subtraction is the one the compiler sees.

* `handleTimeout` takes what `grabPicture` got from the camera as a parameter `call : γ`, with
  `grabPicture : γ → Buffer`. It also returns the `Shot` it made, which no code reads: the slot,
  the call and the bytes swapped into the slot.
* An `Event` is one whole call of `handle_timeout`, `save_file`, `setTimer` or `stopCapture`;
  `getImage` changes nothing and is a function of the state between events. Posted saves run in
  any order (several threads run the `io_context`), and each may find its file not openable.

Out of scope here: the steps inside one call as another thread sees them, and the wait that
`async_wait` starts (`Event.timeout` may come at any time).
-/

namespace Camerasp.Timer

open Camerasp.Lib (Machine)

/-- `std::vector<unsigned char>`. -/
abbrev Buffer := List UInt8

/-- `const unsigned int maxSize`. -/
abbrev maxSize : UInt32 := 100

/-- An index of `imagebuffers[maxSize]`. -/
abbrev Slot := Fin 100

/-- The globals that the options file sets. -/
structure Config where
  samplingPeriod : Int
  maxFileCount : Int32
  pathnamePrefix : String

/-- The globals of `timer.cpp`, the timer's expiry, the posted saves and the files written. -/
structure State where
  imagebuffers : Slot → Buffer
  curImg : UInt32
  curImg_lt : curImg < maxSize
  currentCount : Int32
  pendingCount : Int32
  quitFlag : Bool
  prev : Int
  expiresAt : Option Int
  posted : List Slot
  files : String → Option Buffer

/-- The state at program start: nothing captured, nothing saved. -/
def State.init : State where
  imagebuffers _ := []
  curImg := 0
  curImg_lt := by decide
  currentCount := 0
  pendingCount := 0
  quitFlag := false
  prev := 0
  expiresAt := none
  posted := []
  files _ := none

/-! ## Saving a slot -/

/-- `sprintf(intstr, "%04d", file_number)`. -/
def intstr (fileNumber : Slot) : String :=
  let digits := (toString fileNumber.val).toList
  String.ofList (List.replicate (4 - digits.length) '0' ++ digits)

/-- The name under which `save_file` writes a slot. -/
def fileName (cfg : Config) (fileNumber : Slot) : String :=
  cfg.pathnamePrefix ++ intstr fileNumber ++ ".jpg"

/-- `save_image`: the bytes, where `fopen_s` gives a file. -/
def saveImage (opens : Bool) (buffer : Buffer) (fName : String)
    (files : String → Option Buffer) : String → Option Buffer :=
  if opens then Function.update files fName (some buffer) else files

def saveFile (cfg : Config) (opens : Bool) (fileNumber : Slot) (st : State) : State :=
  let buffer := st.imagebuffers fileNumber
  { st with
    files := saveImage opens buffer (fileName cfg fileNumber) st.files
    pendingCount := st.pendingCount - 1 }

/-- Some thread runs a posted `save_file`. -/
def runPosted (cfg : Config) (task : Nat) (opens : Bool) (st : State) : State :=
  match st.posted[task]? with
  | none => st
  | some fileNumber => saveFile cfg opens fileNumber { st with posted := st.posted.eraseIdx task }

/-! ## Capturing -/

/-- What one run of `handle_timeout` stored: the slot, the camera's answer, the bytes. -/
structure Shot (γ : Type*) where
  slot : Slot
  call : γ
  buffer : Buffer

variable {γ : Type*}

/-- `next = curImg`, the slot the coming capture writes. -/
def State.next (st : State) : Slot :=
  ⟨st.curImg.toNat, UInt32.lt_iff_toNat_lt.mp st.curImg_lt⟩

theorem mod_maxSize_lt (x : UInt32) : x % maxSize < maxSize := by
  rw [UInt32.lt_iff_toNat_lt, UInt32.toNat_mod]
  exact Nat.mod_lt _ (by decide)

/-- The save is posted unless too many are under way already. -/
def postsSave (cfg : Config) (filesInQueue : Int32) : Bool :=
  filesInQueue < cfg.maxFileCount / 10 || filesInQueue < 10

def handleTimeout (cfg : Config) (grabPicture : γ → Buffer) (current : Int) (call : γ)
    (st : State) : State × Option (Shot γ) :=
  if st.quitFlag then (st, none)
  else
    let buffer := grabPicture call
    let filesInQueue := st.pendingCount + 1
    let posts := postsSave cfg filesInQueue
    ({ st with
        imagebuffers := Function.update st.imagebuffers st.next buffer
        pendingCount := if posts then filesInQueue else filesInQueue - 1
        posted := if posts then st.posted ++ [st.next] else st.posted
        currentCount :=
          if st.currentCount.toUInt32 < maxSize then st.currentCount + 1 else st.currentCount
        curImg := (st.curImg + 1) % maxSize
        curImg_lt := mod_maxSize_lt _
        expiresAt := some (st.prev + 2 * cfg.samplingPeriod)
        prev := current },
      some ⟨st.next, call, buffer⟩)

def setTimer (cfg : Config) (now : Int) (st : State) : State :=
  { st with quitFlag := false, prev := now, expiresAt := some (now + cfg.samplingPeriod) }

def stopCapture (st : State) : State := { st with quitFlag := true }

/-! ## Serving an image -/

/-- The clamp of `getImage`: `k` as it enters the subtraction. -/
def clamp (st : State) (k : Int32) : Int32 :=
  if k > st.currentCount ∧ st.currentCount.toUInt32 < maxSize then st.currentCount - 1 else k

/-- `next` of `getImage`: the subtraction is unsigned, so it wraps before `% maxSize`. -/
def readIndex (st : State) (k : Int32) : UInt32 :=
  (st.curImg - 1 - (clamp st k).toUInt32) % maxSize

/-- The slot `getImage` locks and copies. -/
def readSlot (st : State) (k : Int32) : Slot :=
  ⟨(readIndex st k).toNat, UInt32.lt_iff_toNat_lt.mp (mod_maxSize_lt _)⟩

def getImage (st : State) (k : Int32) : Buffer := st.imagebuffers (readSlot st k)

/-! ## Runs -/

/-- One call on the `io_context`'s threads. -/
inductive Event (γ : Type*)
  | timeout (current : Int) (call : γ)
  | save (task : Nat) (opens : Bool)
  | setTimer (now : Int)
  | stopCapture

/-- The program's timer: `Event`s in any order, each putting out the `Shot` it made, if any. -/
def machine (cfg : Config) (grabPicture : γ → Buffer) :
    Machine State (Event γ) (Option (Shot γ)) Empty where
  exec st
    | .timeout current call => .ok (handleTimeout cfg grabPicture current call st)
    | .save task opens => .ok (runPosted cfg task opens st, none)
    | .setTimer now => .ok (setTimer cfg now st, none)
    | .stopCapture => .ok (stopCapture st, none)

/-- What the events of a run put out, from program start. -/
abbrev history (cfg : Config) (grabPicture : γ → Buffer) (es : List (Event γ)) :
    List (Option (Shot γ)) :=
  (machine cfg grabPicture).log State.init es

/-- The completed captures of a run, oldest first, out of what its events put out. -/
def shots (os : List (Option (Shot γ))) : List (Shot γ) := os.reduceOption

/-- The bytes the completed captures stored, oldest first. -/
def images (os : List (Option (Shot γ))) : List Buffer := (shots os).map Shot.buffer

/-- The `k`-th previous image: `0` is the one stored last. -/
def previous (os : List (Option (Shot γ))) (k : Nat) : Option Buffer := (images os).reverse[k]?

theorem shots_append_none (os : List (Option (Shot γ))) : shots (os ++ [none]) = shots os := by
  unfold shots
  rw [List.reduceOption_append]
  exact List.append_nil _

theorem shots_append_some (os : List (Option (Shot γ))) (s : Shot γ) :
    shots (os ++ [some s]) = shots os ++ [s] := by
  unfold shots
  rw [List.reduceOption_append]
  rfl

theorem images_length (os : List (Option (Shot γ))) : (images os).length = (shots os).length :=
  List.length_map _

/-! ### What one event does -/

/-- The ring is the same in both states. -/
structure SameRing (st st' : State) : Prop where
  imagebuffers : st'.imagebuffers = st.imagebuffers
  curImg : st'.curImg = st.curImg
  currentCount : st'.currentCount = st.currentCount

theorem runPosted_sameRing (cfg : Config) (task : Nat) (opens : Bool) (st : State) :
    SameRing st (runPosted cfg task opens st) := by
  unfold runPosted
  cases st.posted[task]? <;> exact ⟨rfl, rfl, rfl⟩

/-- `st'` is `st` after the capture that `shot` records. -/
structure Captured (grabPicture : γ → Buffer) (st st' : State) (shot : Shot γ) : Prop where
  slot : shot.slot = st.next
  buffer : shot.buffer = grabPicture shot.call
  imagebuffers : st'.imagebuffers = Function.update st.imagebuffers st.next shot.buffer
  curImg : st'.curImg = (st.curImg + 1) % maxSize
  currentCount : st'.currentCount =
    if st.currentCount.toUInt32 < maxSize then st.currentCount + 1 else st.currentCount

/-- **An event either leaves the ring alone or is a completed capture.** -/
theorem exec_cases {cfg : Config} {grabPicture : γ → Buffer} {st st' : State} {e : Event γ}
    {o : Option (Shot γ)} (h : (machine cfg grabPicture).exec st e = .ok (st', o)) :
    o = none ∧ SameRing st st' ∨
      ∃ current call shot, e = .timeout current call ∧ o = some shot ∧ shot.call = call ∧
        Captured grabPicture st st' shot := by
  cases e with
  | timeout current call =>
    obtain ⟨hst, ho⟩ : (handleTimeout cfg grabPicture current call st).1 = st' ∧
        (handleTimeout cfg grabPicture current call st).2 = o := by
      simpa only [machine, Except.ok.injEq, Prod.ext_iff] using h
    unfold handleTimeout at hst ho
    by_cases hq : st.quitFlag
    · rw [if_pos hq] at hst ho
      exact .inl ⟨ho.symm, hst ▸ ⟨rfl, rfl, rfl⟩⟩
    · rw [if_neg hq] at hst ho
      exact .inr ⟨current, call, _, rfl, ho.symm, rfl, hst ▸ ⟨rfl, rfl, rfl, rfl, rfl⟩⟩
  | save task opens =>
    cases h
    exact .inl ⟨rfl, runPosted_sameRing cfg task opens st⟩
  | setTimer now =>
    cases h
    exact .inl ⟨rfl, rfl, rfl, rfl⟩
  | stopCapture =>
    cases h
    exact .inl ⟨rfl, rfl, rfl, rfl⟩

theorem handleTimeout_posted (cfg : Config) (grabPicture : γ → Buffer) (current : Int) (call : γ)
    (st : State) {slot : Slot}
    (h : slot ∈ (handleTimeout cfg grabPicture current call st).1.posted) :
    slot ∈ st.posted ∨ ∃ s, (handleTimeout cfg grabPicture current call st).2 = some s ∧
      s.slot = slot := by
  unfold handleTimeout at h ⊢
  by_cases hq : st.quitFlag
  · rw [if_pos hq] at h
    exact .inl h
  · simp only [if_neg hq] at h ⊢
    split_ifs at h with hp
    · rcases List.mem_append.mp h with h | h
      · exact .inl h
      · exact .inr ⟨_, rfl, (List.mem_singleton.mp h).symm⟩
    · exact .inl h

theorem handleTimeout_files (cfg : Config) (grabPicture : γ → Buffer) (current : Int) (call : γ)
    (st : State) : (handleTimeout cfg grabPicture current call st).1.files = st.files := by
  unfold handleTimeout
  by_cases hq : st.quitFlag
  · rw [if_pos hq]
  · rw [if_neg hq]

theorem runPosted_posted (cfg : Config) (task : Nat) (opens : Bool) (st : State) {slot : Slot}
    (h : slot ∈ (runPosted cfg task opens st).posted) : slot ∈ st.posted := by
  unfold runPosted at h
  cases ht : st.posted[task]? with
  | none => simpa only [ht] using h
  | some n =>
    simp only [ht] at h
    exact List.mem_of_mem_eraseIdx h

/-- A save writes a posted slot's bytes, or nothing. -/
theorem runPosted_files (cfg : Config) (task : Nat) (opens : Bool) (st : State) {name : String}
    {b : Buffer} (h : (runPosted cfg task opens st).files name = some b) :
    st.files name = some b ∨ ∃ slot ∈ st.posted, b = st.imagebuffers slot := by
  unfold runPosted at h
  cases ht : st.posted[task]? with
  | none => exact .inl (by simpa only [ht] using h)
  | some n =>
    simp only [ht, saveFile, saveImage] at h
    split_ifs at h with ho
    · by_cases hn : name = fileName cfg n
      · rw [hn, Function.update_self] at h
        exact .inr ⟨n, List.mem_of_getElem? ht, (Option.some.inj h).symm⟩
      · rw [Function.update_of_ne hn] at h
        exact .inl h
    · exact .inl h

/-- **What an event posts and saves**: a capture posts its own slot, a save writes a posted one. -/
theorem exec_saves {cfg : Config} {grabPicture : γ → Buffer} {st st' : State} {e : Event γ}
    {o : Option (Shot γ)} (h : (machine cfg grabPicture).exec st e = .ok (st', o)) :
    (∀ slot ∈ st'.posted, slot ∈ st.posted ∨ ∃ s, o = some s ∧ s.slot = slot) ∧
      ∀ name b, st'.files name = some b →
        st.files name = some b ∨ ∃ slot ∈ st.posted, b = st.imagebuffers slot := by
  cases e with
  | timeout current call =>
    obtain ⟨rfl, rfl⟩ : (handleTimeout cfg grabPicture current call st).1 = st' ∧
        (handleTimeout cfg grabPicture current call st).2 = o := by
      simpa only [machine, Except.ok.injEq, Prod.ext_iff] using h
    refine ⟨fun _ => handleTimeout_posted cfg grabPicture current call st, fun name b hb => ?_⟩
    rw [handleTimeout_files] at hb
    exact .inl hb
  | save task opens =>
    cases h
    exact ⟨fun _ hs => .inl (runPosted_posted cfg task opens st hs),
      fun _ _ => runPosted_files cfg task opens st⟩
  | setTimer now =>
    cases h
    exact ⟨fun _ => .inl, fun _ _ => .inl⟩
  | stopCapture =>
    cases h
    exact ⟨fun _ => .inl, fun _ _ => .inl⟩

end Camerasp.Timer
