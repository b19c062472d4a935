import Camerasp.Lib.Machine
import Mathlib.Logic.Function.Basic

/-!
# Who owns a `RASPICAM_USERDATA` (`cam_still.cpp`)

`takePicture` allocates a record with a semaphore on its own stack, publishes it as the encoder
output port's `userdata`, and shares it with the callbacks. The machine here has one step for each
thing either side does with it; calls of `takePicture` follow one another on one port and never
end, callbacks are any number at a time.

* `mainStep ok` is the next step of `takePicture` (`cam_still.cpp:428-451`) with `startCapture`
  and `stopCapture` opened up; `ok` is the outcome of its MMAL call, where it makes one.
* `enter` starts `buffer_callback` while the port is enabled; `callback i flag` is the next step
  of the `i`-th callback in flight. `flag` says whether the buffer fits, then whether it carries an
  end flag.
* A successful `mmal_port_disable` waits for the callbacks in flight, a failed one leaves the port
  enabled.
* `faults` counts the uses of a record that was freed or whose semaphore was destroyed.

`stopCapture` frees the record when `mmal_port_disable` *fails*. Result:
* `clean_iff`: no fault and every record of a returned call freed once, exactly in the runs in
  which no call has returned and no callback has used the record since `sem_destroy`.
-/

namespace Camerasp.Camera.Ownership

open Camerasp.Lib (Machine)

/-- Where a call of `takePicture` is. -/
inductive Stage
  /-- the record is set up, not yet published -/
  | allocated
  /-- published; `startCapture` looks at `is_enabled` -/
  | published
  /-- `mmal_port_enable` comes next -/
  | tested
  /-- `MMAL_PARAMETER_CAPTURE` comes next -/
  | enabled
  /-- in `sem_wait` -/
  | started
  /-- `sem_destroy` comes next -/
  | woken
  /-- `stopCapture` comes next -/
  | destroyed
  /-- reads `userdata->offset` and returns `0` -/
  | stopped
  /-- `startCapture` failed; `sem_destroy` comes next -/
  | refused
  /-- returns `-1` -/
  | failing
  deriving DecidableEq

/-- What a callback in flight does next. -/
inductive Use
  /-- reads `offset` and `length` -/
  | check
  /-- copies the bytes -/
  | copy
  /-- posts the semaphore if the buffer carries an end flag -/
  | post
  /-- reads `encoderPool` if the port is enabled -/
  | refill
  deriving DecidableEq

/-- A callback in flight: the record it read off the port and where it is. -/
structure Callback where
  record : Nat
  use : Use

/-- The port, the records by number, and the call and the callbacks that share them. -/
structure State where
  call : Option (Stage × Nat)
  next : Nat
  posts : Nat → Nat
  semDestroyed : Nat → Bool
  frees : Nat → Nat
  userdata : Option Nat
  isEnabled : Bool
  inFlight : List Callback
  returned : List Nat
  faults : Nat

/-- No call made yet. -/
def State.init : State := ⟨none, 0, fun _ => 0, fun _ => false, fun _ => 0, none, false, [], [], 0⟩

namespace State

/-- The record is no longer there to be used. -/
def gone (st : State) (r : Nat) : Bool := st.semDestroyed r || st.frees r != 0

/-- Some code goes through a pointer to the record. -/
def touch (st : State) (r : Nat) : State :=
  if st.gone r then { st with faults := st.faults + 1 } else st

/-- `new RASPICAM_USERDATA()`, with `sem_init`. -/
def start (st : State) : State :=
  { st with call := some (.allocated, st.next), next := st.next + 1 }

def goto (st : State) (s : Stage) (r : Nat) : State := { st with call := some (s, r) }

/-- `sem_destroy(&mutex)`. -/
def semDestroy (st : State) (r : Nat) : State :=
  { st with semDestroyed := Function.update st.semDestroyed r true }

/-- `delete (RASPICAM_USERDATA *)encoder_output_port->userdata`. -/
def deleteUserdata (st : State) : State :=
  match st.userdata with
  | none => st
  | some r => { st with frees := Function.update st.frees r (st.frees r + 1) }

/-- The call is over. -/
def ret (st : State) (r : Nat) : State := { st with call := none, returned := r :: st.returned }

/-- `*length = userdata->offset`: the record itself must be there, its semaphore is not used. -/
def readOffset (st : State) (r : Nat) : State :=
  if st.frees r = 0 then st else { st with faults := st.faults + 1 }

end State

/-- `ok` is what `mmal_port_disable` reports; success comes once no callback is in flight. -/
def stopCapture (ok : Bool) (st : State) : Option State :=
  if st.isEnabled then
    if ok then if st.inFlight.isEmpty then some { st with isEnabled := false } else none
    else some st.deleteUserdata
  else some st

/-- The next step of `takePicture`; `none` while it waits. -/
def mainStep (ok : Bool) (st : State) : Option State :=
  match st.call with
  | none => some st.start
  | some (.allocated, r) => some ({ st with userdata := some r }.goto .published r)
  | some (.published, r) => some (st.goto (if st.isEnabled then .refused else .tested) r)
  | some (.tested, r) =>
    some (if ok then { st with isEnabled := true }.goto .enabled r else st.goto .refused r)
  | some (.enabled, r) => some (st.goto (if ok then .started else .refused) r)
  | some (.started, r) =>
    if st.posts r = 0 then none
    else some ({ st with posts := Function.update st.posts r (st.posts r - 1) }.goto .woken r)
  | some (.woken, r) => some ((st.semDestroy r).goto .destroyed r)
  | some (.destroyed, r) => (stopCapture ok st).map (·.goto .stopped r)
  | some (.stopped, r) => some ((st.readOffset r).ret r)
  | some (.refused, r) => some ((st.semDestroy r).goto .failing r)
  | some (.failing, r) => some (st.ret r)

/-- `buffer_callback` starts: it reads the port's `userdata`, and returns if that is null. -/
def enter (st : State) : Option State :=
  if st.isEnabled then
    match st.userdata with
    | none => some st
    | some r => some { st with inFlight := st.inFlight ++ [⟨r, .check⟩] }
  else none

/-- The callback's next step goes through its record. -/
def Callback.touches (c : Callback) (st : State) (flag : Bool) : Bool :=
  match c.use with
  | .check | .copy => true
  | .post => flag
  | .refill => st.isEnabled

/-- What the callback does after its next step; a buffer that does not fit ends it. -/
def Callback.then (c : Callback) (flag : Bool) : Option Use :=
  match c.use with
  | .check => if flag then some .copy else none
  | .copy => some .post
  | .post => some .refill
  | .refill => none

/-- The next step of a callback in flight. -/
def callbackStep (i : Nat) (flag : Bool) (st : State) : Option State :=
  match st.inFlight[i]? with
  | none => none
  | some c =>
    let touched := if c.touches st flag then st.touch c.record else st
    some { touched with
      posts :=
        if c.use = .post ∧ flag then
          Function.update touched.posts c.record (touched.posts c.record + 1)
        else touched.posts
      inFlight :=
        match c.then flag with
        | none => touched.inFlight.eraseIdx i
        | some use => touched.inFlight.set i ⟨c.record, use⟩ }

/-- One step of either side. -/
inductive Event
  | main (ok : Bool)
  | enter
  | callback (i : Nat) (flag : Bool)

def step (st : State) : Event → Option State
  | .main ok => mainStep ok st
  | .enter => enter st
  | .callback i flag => callbackStep i flag st

/-- Any interleaving; an event whose side cannot move ends the run. -/
def machine : Machine State Event Unit Unit where
  exec st e :=
    match step st e with
    | none => .error ()
    | some st' => .ok (st', ())

/-! ## What is asked of a run -/

/-- No bad use so far, and every record freed once when its call has returned. -/
structure Clean (st : State) : Prop where
  faults : st.faults = 0
  freed : ∀ r ∈ st.returned, st.frees r = 1
  once : ∀ r, st.frees r ≤ 1

/-- The call's next step is its return. -/
def Stage.returning : Stage → Bool
  | .stopped | .failing => true
  | _ => false

/-- The call has destroyed its semaphore. -/
def Stage.pastDestroy : Stage → Bool
  | .destroyed | .stopped | .failing => true
  | _ => false

def State.returning (st : State) : Bool := st.call.any fun c => c.1.returning

def State.pastDestroy (st : State) : Bool := st.call.any fun c => c.1.pastDestroy

/-- The event is no return of a call, and no callback's use of a record after `sem_destroy`. -/
def Quiet (st : State) : Event → Prop
  | .main _ => ¬ st.returning
  | .enter => True
  | .callback i flag => ∀ c, st.inFlight[i]? = some c → c.touches st flag → ¬ st.pastDestroy

/-! ## What a step does -/

/-- The steps of `buffer_callback` leave the call, the ports and the ownership of records alone,
and only add to the faults. -/
structure Frame (st st' : State) : Prop where
  call : st'.call = st.call
  next : st'.next = st.next
  semDestroyed : st'.semDestroyed = st.semDestroyed
  frees : st'.frees = st.frees
  userdata : st'.userdata = st.userdata
  returned : st'.returned = st.returned
  faults : st.faults ≤ st'.faults

theorem touch_frame (st : State) (r : Nat) : Frame st (st.touch r) := by
  unfold State.touch
  split_ifs
  · exact ⟨rfl, rfl, rfl, rfl, rfl, rfl, Nat.le_succ _⟩
  · exact ⟨rfl, rfl, rfl, rfl, rfl, rfl, Nat.le_refl _⟩

theorem touch_inFlight (st : State) (r : Nat) : (st.touch r).inFlight = st.inFlight := by
  unfold State.touch
  split_ifs <;> rfl

theorem touch_faults (st : State) (r : Nat) :
    (st.touch r).faults = st.faults + (st.gone r).toNat := by
  unfold State.touch
  cases st.gone r <;> rfl

/-- A callback starts with the record the port shows. -/
theorem enter_cases {st st' : State} (h : enter st = some st') :
    Frame st st' ∧ st'.faults = st.faults ∧
      ∀ c ∈ st'.inFlight, c ∈ st.inFlight ∨ st.userdata = some c.record := by
  unfold enter at h
  split_ifs at h
  cases hu : st.userdata with
  | none =>
    simp only [hu, Option.some.injEq] at h
    subst h
    exact ⟨⟨rfl, rfl, rfl, rfl, rfl, rfl, Nat.le_refl _⟩, rfl, fun _ => .inl⟩
  | some r =>
    simp only [hu, Option.some.injEq] at h
    subst h
    refine ⟨⟨rfl, rfl, rfl, rfl, hu.symm, rfl, Nat.le_refl _⟩, rfl, fun c hc => ?_⟩
    rcases List.mem_append.mp hc with hc | hc
    · exact .inl hc
    · rw [List.mem_singleton.mp hc]
      exact .inr rfl

/-- A callback's step goes through the record it started with, or through none. -/
theorem callbackStep_cases {st st' : State} {i : Nat} {flag : Bool}
    (h : callbackStep i flag st = some st') :
    ∃ c, st.inFlight[i]? = some c ∧ Frame st st' ∧
      st'.faults = st.faults + (c.touches st flag && st.gone c.record).toNat ∧
      ∀ d ∈ st'.inFlight, d ∈ st.inFlight ∨ d.record = c.record := by
  unfold callbackStep at h
  cases hc : st.inFlight[i]? with
  | none => simp only [hc] at h; cases h
  | some c =>
    simp only [hc, Option.some.injEq] at h
    subst h
    refine ⟨c, rfl, ?_, ?_, ?_⟩
    · have hf : Frame st (if c.touches st flag then st.touch c.record else st) := by
        split_ifs
        · exact touch_frame st c.record
        · exact ⟨rfl, rfl, rfl, rfl, rfl, rfl, Nat.le_refl _⟩
      exact ⟨hf.1, hf.2, hf.3, hf.4, hf.5, hf.6, hf.7⟩
    · cases c.touches st flag with
      | false => rfl
      | true => exact touch_faults st c.record
    · intro d hd
      have hin : (if c.touches st flag then st.touch c.record else st).inFlight = st.inFlight := by
        split_ifs
        · exact touch_inFlight st c.record
        · rfl
      cases ht : c.then flag with
      | none =>
        simp only [ht, hin] at hd
        exact .inl (List.mem_of_mem_eraseIdx hd)
      | some use =>
        simp only [ht, hin] at hd
        rcases List.mem_or_eq_of_mem_set hd with hd | rfl
        · exact .inl hd
        · exact .inr rfl

/-- A step of the call that neither starts nor ends it. -/
structure Moves (st st' : State) (s s' : Stage) (r : Nat) : Prop where
  call : st'.call = some (s', r)
  next : st'.next = st.next
  userdata : st'.userdata = if s = .allocated then some r else st.userdata
  inFlight : st'.inFlight = st.inFlight
  returned : st'.returned = st.returned
  faults : st'.faults = st.faults
  semDestroyed : st'.semDestroyed =
    if s = .woken ∨ s = .refused then Function.update st.semDestroyed r true else st.semDestroyed
  frees : st'.frees = st.frees ∨ s = .destroyed ∧ s' = .stopped ∧
    ∃ q, st.userdata = some q ∧ st'.frees = Function.update st.frees q (st.frees q + 1)
  pastDestroy : s'.pastDestroy ↔ s = .woken ∨ s = .refused ∨ s = .destroyed
  returning : ¬ s.returning

theorem Moves.call_inj {st st' : State} {s s' s₁ : Stage} {r r₁ : Nat} (h : Moves st st' s s' r)
    (hs : st'.call = some (s₁, r₁)) : s' = s₁ ∧ r = r₁ := by
  rw [h.call, Option.some.injEq, Prod.mk.injEq] at hs
  exact hs

/-- The last step of a call. -/
structure Returns (st st' : State) (s : Stage) (r : Nat) : Prop where
  call : st'.call = none
  next : st'.next = st.next
  frees : st'.frees = st.frees
  returned : st'.returned = r :: st.returned
  faults : st'.faults = st.faults + if s = .stopped ∧ st.frees r ≠ 0 then 1 else 0
  returning : s.returning

theorem stopCapture_cases {st st' : State} {ok : Bool} (h : stopCapture ok st = some st') :
    st' = st ∨ st' = { st with isEnabled := false } ∨
      ∃ q, st.userdata = some q ∧
        st' = { st with frees := Function.update st.frees q (st.frees q + 1) } := by
  unfold stopCapture at h
  split_ifs at h
  · exact .inr (.inl (Option.some.inj h).symm)
  · unfold State.deleteUserdata at h
    cases hu : st.userdata with
    | none =>
      simp only [hu] at h
      exact .inl (Option.some.inj h).symm
    | some q =>
      simp only [hu] at h
      exact .inr (.inr ⟨q, rfl, (Option.some.inj h).symm⟩)
  · exact .inl (Option.some.inj h).symm

/-- **What a step of `takePicture` does**: it starts, moves on or returns. -/
theorem mainStep_cases {st st' : State} {ok : Bool} (h : mainStep ok st = some st') :
    st.call = none ∧ st' = st.start ∨
      (∃ s s' r, st.call = some (s, r) ∧ Moves st st' s s' r) ∨
        ∃ s r, st.call = some (s, r) ∧ Returns st st' s r := by
  unfold mainStep at h
  cases hc : st.call with
  | none =>
    simp only [hc, Option.some.injEq] at h
    exact .inl ⟨rfl, h.symm⟩
  | some c =>
    obtain ⟨s, r⟩ := c
    simp only [hc] at h
    refine .inr ?_
    cases s with
    | allocated =>
      cases h
      exact .inl ⟨_, _, r, rfl, rfl, rfl, rfl, rfl, rfl, rfl, rfl, .inl rfl, by decide, by decide⟩
    | published =>
      refine .inl ⟨_, if st.isEnabled then .refused else .tested, r, rfl, ?_⟩
      cases h
      refine ⟨rfl, rfl, rfl, rfl, rfl, rfl, rfl, .inl rfl, ?_, by decide⟩
      split_ifs <;> decide
    | tested =>
      cases ok <;> cases h <;>
        exact .inl ⟨_, _, r, rfl, rfl, rfl, rfl, rfl, rfl, rfl, rfl, .inl rfl, by decide, by decide⟩
    | enabled =>
      cases ok <;> cases h <;>
        exact .inl ⟨_, _, r, rfl, rfl, rfl, rfl, rfl, rfl, rfl, rfl, .inl rfl, by decide, by decide⟩
    | started =>
      simp only [Option.ite_none_left_eq_some, Option.some.injEq] at h
      obtain ⟨-, rfl⟩ := h
      exact .inl ⟨_, _, r, rfl, rfl, rfl, rfl, rfl, rfl, rfl, rfl, .inl rfl, by decide, by decide⟩
    | woken =>
      cases h
      exact .inl ⟨_, _, r, rfl, rfl, rfl, rfl, rfl, rfl, rfl, rfl, .inl rfl, by decide, by decide⟩
    | destroyed =>
      refine .inl ⟨_, .stopped, r, rfl, ?_⟩
      obtain ⟨st₁, hs, rfl⟩ := Option.map_eq_some_iff.mp h
      rcases stopCapture_cases hs with rfl | rfl | ⟨q, hu, rfl⟩
      · exact ⟨rfl, rfl, rfl, rfl, rfl, rfl, rfl, .inl rfl, by decide, by decide⟩
      · exact ⟨rfl, rfl, rfl, rfl, rfl, rfl, rfl, .inl rfl, by decide, by decide⟩
      · exact ⟨rfl, rfl, rfl, rfl, rfl, rfl, rfl, .inr ⟨rfl, rfl, q, hu, rfl⟩, by decide,
          by decide⟩
    | stopped =>
      refine .inr ⟨_, r, rfl, ?_⟩
      cases h
      unfold State.readOffset
      by_cases h0 : st.frees r = 0
      · rw [if_pos h0]
        exact ⟨rfl, rfl, rfl, rfl, by rw [if_neg (fun h => h.2 h0)]; rfl, by decide⟩
      · rw [if_neg h0]
        exact ⟨rfl, rfl, rfl, rfl, by rw [if_pos ⟨rfl, h0⟩]; rfl, by decide⟩
    | refused =>
      cases h
      exact .inl ⟨_, _, r, rfl, rfl, rfl, rfl, rfl, rfl, rfl, rfl, .inl rfl, by decide, by decide⟩
    | failing =>
      cases h
      exact .inr ⟨_, r, rfl, rfl, rfl, rfl, rfl, rfl, by decide⟩

/-! ## Once dirty, always dirty -/

/-- A returned record is never the current one, and after `allocated` the port shows the current
one. -/
structure Tracked (st : State) : Prop where
  returned_lt : ∀ r ∈ st.returned, r < st.next
  current_lt : ∀ s r, st.call = some (s, r) → r < st.next
  current : ∀ s r, st.call = some (s, r) → r ∉ st.returned
  published : ∀ s r, st.call = some (s, r) → s ≠ .allocated → st.userdata = some r

/-- A bad use has happened, or a call has returned without its record freed. -/
def Dirty (st : State) : Prop := 0 < st.faults ∨ ∃ r ∈ st.returned, st.frees r = 0

theorem tracked_init : Tracked State.init :=
  ⟨fun _ h => absurd h List.not_mem_nil, fun _ _ h => absurd h (by simp [State.init]),
    fun _ _ h => absurd h (by simp [State.init]), fun _ _ h => absurd h (by simp [State.init])⟩

theorem Tracked.frame {st st' : State} (hi : Tracked st) (hf : Frame st st') : Tracked st' where
  returned_lt := by rw [hf.returned, hf.next]; exact hi.returned_lt
  current_lt := by rw [hf.call, hf.next]; exact hi.current_lt
  current := by rw [hf.call, hf.returned]; exact hi.current
  published := by rw [hf.call, hf.userdata]; exact hi.published

theorem Dirty.frame {st st' : State} (hd : Dirty st) (hf : Frame st st') : Dirty st' := by
  unfold Dirty
  rw [hf.returned, hf.frees]
  exact hd.imp_left fun h => Nat.lt_of_lt_of_le h hf.faults

theorem Tracked.moves {st st' : State} (hi : Tracked st) {s s' : Stage} {r : Nat}
    (hc : st.call = some (s, r)) (h : Moves st st' s s' r) : Tracked st' where
  returned_lt := by rw [h.returned, h.next]; exact hi.returned_lt
  current_lt s₁ r₁ hs := by
    obtain ⟨-, rfl⟩ := h.call_inj hs
    rw [h.next]
    exact hi.current_lt s r hc
  current s₁ r₁ hs := by
    obtain ⟨-, rfl⟩ := h.call_inj hs
    rw [h.returned]
    exact hi.current s r hc
  published s₁ r₁ hs _ := by
    obtain ⟨-, rfl⟩ := h.call_inj hs
    rw [h.userdata]
    split_ifs with ha
    · rfl
    · exact hi.published s r hc ha

theorem Tracked.returns {st st' : State} (hi : Tracked st) {s : Stage} {r : Nat}
    (hc : st.call = some (s, r)) (h : Returns st st' s r) : Tracked st' where
  returned_lt r₁ hr := by
    rw [h.returned, List.mem_cons] at hr
    rw [h.next]
    rcases hr with rfl | hr
    · exact hi.current_lt s r₁ hc
    · exact hi.returned_lt r₁ hr
  current_lt _ _ hs := by rw [h.call] at hs; cases hs
  current _ _ hs := by rw [h.call] at hs; cases hs
  published _ _ hs := by rw [h.call] at hs; cases hs

theorem Tracked.starts {st : State} (hi : Tracked st) : Tracked st.start where
  returned_lt r hr := Nat.lt_succ_of_lt (hi.returned_lt r hr)
  current_lt := by
    rintro s r ⟨⟩
    exact Nat.lt_succ_self _
  current := by
    rintro s r ⟨⟩ hr
    exact absurd (hi.returned_lt _ hr) (Nat.lt_irrefl _)
  published := by
    rintro s r ⟨⟩ hs
    exact absurd rfl hs

theorem tracked_step {st st' : State} {e : Event} (hi : Tracked st) (h : step st e = some st') :
    Tracked st' := by
  cases e with
  | main ok =>
    rcases mainStep_cases h with ⟨-, rfl⟩ | ⟨s, s', r, hc, hm⟩ | ⟨s, r, hc, hr⟩
    · exact hi.starts
    · exact hi.moves hc hm
    · exact hi.returns hc hr
  | enter => exact hi.frame (enter_cases h).1
  | callback i flag =>
    obtain ⟨c, -, hf, -⟩ := callbackStep_cases h
    exact hi.frame hf

/-- A record whose call has returned is never freed later: `stopCapture` frees the one the port
shows, which is the current call's. -/
theorem dirty_step {st st' : State} {e : Event} (hi : Tracked st) (hd : Dirty st)
    (h : step st e = some st') : Dirty st' := by
  cases e with
  | main ok =>
    rcases mainStep_cases h with ⟨-, rfl⟩ | ⟨s, s', r, hc, hm⟩ | ⟨s, r, hc, hr⟩
    · exact hd
    · rcases hd with hd | ⟨q, hq, h0⟩
      · exact .inl (by rw [hm.faults]; exact hd)
      · refine .inr ⟨q, by rw [hm.returned]; exact hq, ?_⟩
        rcases hm.frees with hf | ⟨rfl, -, p, hp, hf⟩
        · rw [hf]
          exact h0
        · rw [hi.published _ _ hc (by decide), Option.some.injEq] at hp
          have hne : q ≠ p := fun hqp => hi.current _ _ hc (hp ▸ hqp ▸ hq)
          rw [hf, Function.update_of_ne hne]
          exact h0
    · rcases hd with hd | ⟨q, hq, h0⟩
      · exact .inl (Nat.lt_of_lt_of_le hd (by rw [hr.faults]; exact Nat.le_add_right _ _))
      · exact .inr ⟨q, by rw [hr.returned]; exact List.mem_cons_of_mem r hq,
          by rw [hr.frees]; exact h0⟩
  | enter => exact hd.frame (enter_cases h).1
  | callback i flag =>
    obtain ⟨c, -, hf, -⟩ := callbackStep_cases h
    exact hd.frame hf

/-- **A call that returns leaves its record leaked, or has just read it after it was freed.** -/
theorem Returns.dirty {st st' : State} {s : Stage} {r : Nat} (hs : s = .stopped ∨ st.frees r = 0)
    (h : Returns st st' s r) : Dirty st' := by
  by_cases h0 : st.frees r = 0
  · exact .inr ⟨r, by rw [h.returned]; exact List.mem_cons_self, by rw [h.frees]; exact h0⟩
  · obtain rfl := hs.resolve_right h0
    refine .inl ?_
    rw [h.faults, if_pos ⟨rfl, h0⟩]
    exact Nat.succ_pos _

theorem Dirty.not_clean {st : State} (hd : Dirty st) : ¬ Clean st := by
  intro hc
  rcases hd with hd | ⟨r, hr, h0⟩
  · rw [hc.faults] at hd
    exact absurd hd (Nat.lt_irrefl 0)
  · rw [hc.freed r hr] at h0
    cases h0

/-! ## Before the first return -/

/-- The first call, at most: its record is `0`, its semaphore lives until `sem_destroy`, and the
record itself until `stopCapture`. -/
structure First (st : State) : Prop where
  returned : st.returned = []
  faults : st.faults = 0
  idle : st.call = none → st.next = 0
  call : ∀ s r, st.call = some (s, r) → r = 0
  userdata : ∀ r, st.userdata = some r → r = 0
  records : ∀ c ∈ st.inFlight, c.record = 0
  semDestroyed : ∀ r, st.semDestroyed r = (st.pastDestroy && r == 0)
  frees : ∀ r, st.frees r = 0 ∨ st.frees r = 1 ∧ ∃ q, st.call = some (.stopped, q)

theorem first_init : First State.init where
  returned := rfl
  faults := rfl
  idle _ := rfl
  call := by rintro s r ⟨⟩
  userdata := by rintro r ⟨⟩
  records _ h := absurd h List.not_mem_nil
  semDestroyed _ := rfl
  frees _ := .inl rfl

theorem First.clean {st : State} (h : First st) : Clean st where
  faults := h.faults
  freed r hr := by rw [h.returned] at hr; exact absurd hr List.not_mem_nil
  once r := by rcases h.frees r with h0 | ⟨h1, -⟩ <;> omega

/-- Before `sem_destroy` no record is gone. -/
theorem First.gone {st : State} (h : First st) (hp : ¬ st.pastDestroy) (r : Nat) :
    st.gone r = false := by
  have h0 : st.frees r = 0 := by
    rcases h.frees r with h0 | ⟨-, q, hq⟩
    · exact h0
    · exact absurd (by unfold State.pastDestroy; rw [hq]; rfl) hp
  unfold State.gone
  rw [h.semDestroyed, Bool.eq_false_iff.mpr hp, h0]
  rfl

theorem First.starts {st : State} (h : First st) (hc : st.call = none) : First st.start where
  returned := h.returned
  faults := h.faults
  idle := by rintro ⟨⟩
  call := by
    rintro s r ⟨⟩
    exact h.idle hc
  userdata := h.userdata
  records := h.records
  semDestroyed r := by
    show st.semDestroyed r = _
    rw [h.semDestroyed]
    unfold State.pastDestroy
    rw [hc]
    rfl
  frees r := .inl <| by
    rcases h.frees r with h0 | ⟨-, q, hq⟩
    · exact h0
    · rw [hc] at hq
      cases hq

theorem First.moves {st st' : State} (h : First st) {s s' : Stage} {r : Nat}
    (hc : st.call = some (s, r)) (hm : Moves st st' s s' r) : First st' where
  returned := by rw [hm.returned]; exact h.returned
  faults := by rw [hm.faults]; exact h.faults
  idle hn := by rw [hm.call] at hn; cases hn
  call s₁ r₁ hs := by
    obtain ⟨-, rfl⟩ := hm.call_inj hs
    exact h.call s r hc
  userdata q hq := by
    rw [hm.userdata] at hq
    split_ifs at hq
    · rw [← Option.some.inj hq]
      exact h.call s r hc
    · exact h.userdata q hq
  records := by rw [hm.inFlight]; exact h.records
  semDestroyed q := by
    have hp : st.pastDestroy = s.pastDestroy := by unfold State.pastDestroy; rw [hc]; rfl
    have hp' : st'.pastDestroy = s'.pastDestroy := by unfold State.pastDestroy; rw [hm.call]; rfl
    obtain rfl := h.call s r hc
    have hd : s.pastDestroy = true ↔ s = .destroyed := by
      have := hm.returning
      cases s <;> simp_all [Stage.pastDestroy, Stage.returning]
    rw [hm.semDestroyed, hp']
    split_ifs with hw
    · rw [hm.pastDestroy.mpr (by tauto), Bool.true_and]
      by_cases hq : q = 0
      · rw [hq, Function.update_self]
        rfl
      · rw [Function.update_of_ne hq, h.semDestroyed]
        simp [hq]
    · rw [h.semDestroyed, hp, Bool.eq_iff_iff.mpr (hd.trans ?_)]
      rw [hm.pastDestroy]
      tauto
  frees q := by
    have h0 : ∀ q, st.frees q = 0 := fun q => by
      rcases h.frees q with h0 | ⟨-, p, hp⟩
      · exact h0
      · rw [hc] at hp
        cases hp
        exact absurd rfl hm.returning
    rcases hm.frees with hf | ⟨-, rfl, p, -, hf⟩
    · exact .inl (by rw [hf]; exact h0 q)
    · by_cases hq : q = p
      · exact .inr ⟨by rw [hf, hq, Function.update_self, h0], r, hm.call⟩
      · exact .inl (by rw [hf, Function.update_of_ne hq, h0])

theorem First.frame {st st' : State} (h : First st) (hf : Frame st st')
    (hfaults : st'.faults = st.faults)
    (hr : ∀ c ∈ st'.inFlight, c ∈ st.inFlight ∨ c.record = 0) : First st' where
  returned := by rw [hf.returned]; exact h.returned
  faults := by rw [hfaults]; exact h.faults
  idle := by rw [hf.call, hf.next]; exact h.idle
  call := by rw [hf.call]; exact h.call
  userdata := by rw [hf.userdata]; exact h.userdata
  records c hc := (hr c hc).elim (h.records c) id
  semDestroyed := by
    unfold State.pastDestroy
    rw [hf.semDestroyed, hf.call]
    exact h.semDestroyed
  frees := by rw [hf.frees, hf.call]; exact h.frees

/-- Quiet steps stay before the first return, and make no bad use. -/
theorem first_step {st st' : State} {e : Event} (h : First st) (hq : Quiet st e)
    (hs : step st e = some st') : First st' := by
  cases e with
  | main ok =>
    rcases mainStep_cases hs with ⟨hc, rfl⟩ | ⟨s, s', r, hc, hm⟩ | ⟨s, r, hc, hr⟩
    · exact h.starts hc
    · exact h.moves hc hm
    · refine absurd ?_ hq
      unfold State.returning
      rw [hc]
      exact hr.returning
  | enter =>
    obtain ⟨hf, hfaults, hin⟩ := enter_cases hs
    exact h.frame hf hfaults fun c hc => (hin c hc).imp_right (h.userdata c.record)
  | callback i flag =>
    obtain ⟨c, hc, hf, hfaults, hin⟩ := callbackStep_cases hs
    have hc0 := h.records c (List.mem_of_getElem? hc)
    refine h.frame hf ?_ fun d hd => (hin d hd).imp_right fun he => he.trans hc0
    cases ht : c.touches st flag with
    | false => rw [hfaults, ht]; rfl
    | true => rw [hfaults, ht, h.gone (hq c hc ht)]; rfl

/-- The first step that is not quiet makes the state dirty. -/
theorem First.dirty {st st' : State} {e : Event} (h : First st) (hq : ¬ Quiet st e)
    (hs : step st e = some st') : Dirty st' := by
  cases e with
  | main ok =>
    have hret : st.returning = true := not_not.mp hq
    rcases mainStep_cases hs with ⟨hc, rfl⟩ | ⟨s, s', r, hc, hm⟩ | ⟨s, r, hc, hr⟩
    · rw [State.returning, hc] at hret
      cases hret
    · rw [State.returning, hc] at hret
      exact absurd hret hm.returning
    · refine hr.dirty ?_
      by_cases hst : s = .stopped
      · exact .inl hst
      · refine .inr ((h.frees r).resolve_right ?_)
        rintro ⟨-, q, hcall⟩
        rw [hc, Option.some.injEq, Prod.mk.injEq] at hcall
        exact hst hcall.1
  | enter => exact absurd trivial hq
  | callback i flag =>
    obtain ⟨c, hc, hf, hfaults, -⟩ := callbackStep_cases hs
    have hn : ¬ (c.touches st flag = true → ¬ st.pastDestroy = true) := by
      intro hn
      refine hq fun d hd ht => ?_
      obtain rfl : c = d := Option.some.inj (hc.symm.trans hd)
      exact hn ht
    obtain ⟨ht, hp⟩ := Classical.not_imp.mp hn
    have hp := not_not.mp hp
    have hg : st.gone c.record = true := by
      unfold State.gone
      rw [h.semDestroyed, hp, h.records c (List.mem_of_getElem? hc)]
      rfl
    refine .inl ?_
    rw [hfaults, ht, hg]
    exact Nat.succ_pos _

/-! ## All runs -/

theorem exec_eq_ok {st st' : State} {e : Event} {o : Unit} (h : machine.exec st e = .ok (st', o)) :
    step st e = some st' := by
  unfold machine at h
  cases hs : step st e with
  | none => simp only [hs] at h; cases h
  | some st₁ =>
    simp only [hs] at h
    cases h
    rfl

/-- **Exactly the runs without a return and without a late use are clean.** In particular no run
in which a call of `takePicture` has returned is. -/
theorem clean_iff {es : List Event} {st : State} (h : machine.run State.init es = .ok st) :
    Clean st ↔ machine.Steps (fun st e _ => Quiet st e) State.init es := by
  constructor
  · intro hc
    by_contra hn
    obtain ⟨pre, e, post, t, rfl, hpre, hq, he⟩ := Machine.exists_of_not_steps hn
    obtain ⟨t₁, ht₁, hrest⟩ := Machine.run_append_inv h
    obtain rfl : t = t₁ := Except.ok.inj (hpre.symm.trans ht₁)
    obtain ⟨u, o, hu, hrun⟩ := Machine.run_cons_inv hrest
    have htr : Tracked t := Machine.run_invariant
      (fun s i s' o hi hs => tracked_step hi (exec_eq_ok hs)) hpre tracked_init
    have hfirst : First t := Machine.always_last (Machine.always_of_inv
      (fun s i s' o hi hq hs => first_step hi hq (exec_eq_ok hs)) first_init hq) hpre
    -- The record of the first step that is not quiet is never put right.
    have hd : Tracked st ∧ Dirty st := by
      refine Machine.run_invariant (I := fun st => Tracked st ∧ Dirty st) ?_ hrun
        ⟨tracked_step htr (exec_eq_ok hu), hfirst.dirty he (exec_eq_ok hu)⟩
      exact fun s i s' o hi hs =>
        ⟨tracked_step hi.1 (exec_eq_ok hs), dirty_step hi.1 hi.2 (exec_eq_ok hs)⟩
    exact hd.2.not_clean hc
  · intro hq
    exact (Machine.always_last (Machine.always_of_inv
      (fun s i s' o hi hq hs => first_step hi hq (exec_eq_ok hs)) first_init hq) h).clean

theorem clean_iff_started :
    ∃ st, machine.run State.init [.main true, .main true, .main true, .main true, .enter] = .ok st ∧
      (Clean st ↔ machine.Steps (fun st e _ => Quiet st e) State.init
        [.main true, .main true, .main true, .main true, .enter]) :=
  ⟨_, rfl, clean_iff rfl⟩

/-- One capture in which every MMAL call succeeds: the record is set up and published, the port
enabled, the capture requested, one buffer appended with the end flag, the semaphore taken and
destroyed, the port disabled and the offset read. -/
def ordinaryCapture : List Event :=
  [.main true, .main true, .main true, .main true, .main true, .enter, .callback 0 true,
    .callback 0 true, .callback 0 true, .callback 0 true, .main true, .main true, .main true,
    .main true]

/-- Its record is never freed. -/
theorem ordinaryCapture_not_clean :
    ∃ st, machine.run State.init ordinaryCapture = .ok st ∧ ¬ Clean st :=
  ⟨_, rfl, fun h => absurd (h.freed 0 (by decide)) (by decide)⟩

end Camerasp.Camera.Ownership
