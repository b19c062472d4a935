import Camerasp.Lib.Lag
import Camerasp.Timer.Model

/-!
# When the captures of one timer start

`handle_timeout` sets the timer's next expiry to `prev + 2 * samplingPeriod` and then moves `prev`
to its own start: a capture waits for two periods after the one before last. With `t₀` the time of
`setTimer`, `starts` are `t₀, t₁, …`, where `tₙ` is the start of capture `n`, and `delays` how long
after the timer's expiry each was.

Results:
* `starts_paced`: captures that are late by any amounts, but never early, do not bunch up. No
  window shorter than `2 * m` periods has more than `2 * m` of them.
* `starts_swing`: the distance of neighbours is the period and an alternating sum of all delays so
  far. With delays of up to `d` the one before capture `n` is up to `⌈n / 2⌉ * d` longer and up to
  `⌊n / 2⌋ * d` shorter than the period.
-/

namespace Camerasp.Timer

open Camerasp.Lib

variable {γ : Type*} {cfg : Config} {grabPicture : γ → Buffer}

/-- A capture's start, and how long after the timer's expiry that was. -/
structure Firing where
  start : Int
  delay : Int

/-- What an event that meets `st` and puts out `o` adds to the captures. -/
def firing (st : State) : Event γ → Option (Shot γ) → List Firing
  | .timeout current _, some _ => [⟨current, current - st.expiresAt.getD current⟩]
  | _, _ => []

/-- The captures of a run of events, oldest first. -/
def firings (cfg : Config) (grabPicture : γ → Buffer) : State → List (Event γ) → List Firing
  | _, [] => []
  | st, e :: es =>
    match (machine cfg grabPicture).exec st e with
    | .ok (st', o) => firing st e o ++ firings cfg grabPicture st' es
    | .error _ => []

/-- `t₀, t₁, …`: the call of `setTimer` in the state `st`, then the starts of the captures. -/
def starts (cfg : Config) (grabPicture : γ → Buffer) (t₀ : Int) (st : State)
    (es : List (Event γ)) : List Int :=
  t₀ :: (firings cfg grabPicture (setTimer cfg t₀ st) es).map Firing.start

/-- The delays of the captures after `setTimer`. -/
def delays (cfg : Config) (grabPicture : γ → Buffer) (t₀ : Int) (st : State)
    (es : List (Event γ)) : List Int :=
  (firings cfg grabPicture (setTimer cfg t₀ st) es).map Firing.delay

/-! ## The recurrence -/

/-- Without a `setTimer` an event leaves the schedule alone or is a capture, which moves it on. -/
theorem firing_cases {st st' : State} {e : Event γ} {o : Option (Shot γ)}
    (h : (machine cfg grabPicture).exec st e = .ok (st', o)) (hset : ∀ now, e ≠ .setTimer now) :
    firing st e o = [] ∧ st'.prev = st.prev ∧ st'.expiresAt = st.expiresAt ∨
      ∃ current, firing st e o = [⟨current, current - st.expiresAt.getD current⟩] ∧
        st'.prev = current ∧ st'.expiresAt = some (st.prev + 2 * cfg.samplingPeriod) := by
  cases e with
  | timeout current call =>
    simp only [machine, Except.ok.injEq] at h
    unfold handleTimeout at h
    by_cases hq : st.quitFlag
    · rw [if_pos hq] at h
      cases h
      exact .inl ⟨rfl, rfl, rfl⟩
    · rw [if_neg hq] at h
      cases h
      exact .inr ⟨current, rfl, rfl, rfl⟩
  | save task opens =>
    cases h
    refine .inl ⟨rfl, ?_⟩
    unfold runPosted
    cases st.posted[task]? <;> exact ⟨rfl, rfl⟩
  | setTimer now => exact absurd rfl (hset now)
  | stopCapture =>
    cases h
    exact .inl ⟨rfl, rfl, rfl⟩

/-- The starts `t :: ts` of captures by a timer that expires at `next`, with their delays: each
capture is its delay after the expiry, and the next expiry is two periods after `t`. -/
def Follows (period : Int) : Int → Int → List Firing → Prop
  | _, _, [] => True
  | t, next, f :: fs => f.start = next + f.delay ∧ Follows period f.start (t + 2 * period) fs

/-- **The captures follow the recurrence `next = prev + 2 * samplingPeriod`.** -/
theorem firings_follow {es : List (Event γ)} (hset : ∀ now, Event.setTimer now ∉ es) {st : State}
    {next : Int} (hnext : st.expiresAt = some next) :
    Follows cfg.samplingPeriod st.prev next (firings cfg grabPicture st es) := by
  induction es generalizing st next with
  | nil => trivial
  | cons e es ih =>
    cases he : (machine cfg grabPicture).exec st e with
    | error x => exact nomatch x
    | ok r =>
      obtain ⟨st', o⟩ := r
      have hset' : ∀ now, Event.setTimer now ∉ es := fun now hn => hset now (.tail _ hn)
      have hne : ∀ now, e ≠ .setTimer now := fun now hn => hset now (hn ▸ List.mem_cons_self)
      simp only [firings, he]
      rcases firing_cases he hne with ⟨hf, hp, hx⟩ | ⟨current, hf, hp, hx⟩
      · rw [hf, List.nil_append, ← hp]
        exact ih hset' (hx.trans hnext)
      · rw [hf, hnext, List.singleton_append]
        refine ⟨by simp, ?_⟩
        have hrest := ih hset' hx
        rwa [hp] at hrest

/-- After `setTimer` the first expiry is one period away. -/
theorem starts_follow {es : List (Event γ)} (hset : ∀ now, Event.setTimer now ∉ es) (t₀ : Int)
    (st : State) : Follows cfg.samplingPeriod t₀ (t₀ + cfg.samplingPeriod)
      (firings cfg grabPicture (setTimer cfg t₀ st) es) :=
  show Follows _ (setTimer cfg t₀ st).prev _ _ from firings_follow hset rfl

section Recurrence

variable {period t next : Int} {fs : List Firing}

/-- A capture is two periods and its delay after the one before last. -/
theorem Follows.two_before (h : Follows period t next fs) (n : Nat)
    (hn : n + 2 < (t :: fs.map Firing.start).length) (hf : n + 1 < fs.length) :
    (t :: fs.map Firing.start)[n + 2] =
      (t :: fs.map Firing.start)[n] + 2 * period + fs[n + 1].delay := by
  induction fs generalizing t next n with
  | nil => exact absurd hf (Nat.not_lt_zero _)
  | cons f fs ih =>
    obtain ⟨-, hrest⟩ := h
    cases n with
    | zero =>
      cases fs with
      | nil => exact absurd hf (Nat.lt_irrefl 1)
      | cons g fs => exact hrest.1
    | succ n => exact ih hrest n (Nat.lt_of_succ_lt_succ hn) (Nat.lt_of_succ_lt_succ hf)

theorem Follows.first (h : Follows period t next fs) (hlate : ∀ f ∈ fs, 0 ≤ f.delay)
    (hn : 1 < (t :: fs.map Firing.start).length) : next ≤ (t :: fs.map Firing.start)[1] := by
  cases fs with
  | nil => exact absurd hn (Nat.lt_irrefl 1)
  | cons f fs =>
    have hf := h.1
    have h0 := hlate f List.mem_cons_self
    show next ≤ f.start
    omega

/-- Captures that are never early are lagged. -/
theorem Follows.lagged (h : Follows period t next fs) (hlate : ∀ f ∈ fs, 0 ≤ f.delay) :
    Lagged 2 (2 * period) (t :: fs.map Firing.start) := by
  intro i hi
  have hf : i + 1 < fs.length := by
    simp at hi
    omega
  have hdelay := hlate _ (List.getElem_mem hf)
  rw [h.two_before i hi hf]
  omega

/-- The newest delay less the one before, and so on. -/
def alternating (ds : List Int) : Int := ds.foldl (fun a delay => delay - a) 0

theorem alternating_snoc (ds : List Int) (delay : Int) :
    alternating (ds ++ [delay]) = delay - alternating ds := by
  simp only [alternating, List.foldl_append, List.foldl_cons, List.foldl_nil]

/-- The distance of neighbours, by the delays so far. -/
theorem Follows.gap (h : Follows period t (t + period) fs) (n : Nat)
    (hn : n + 1 < (t :: fs.map Firing.start).length) :
    (t :: fs.map Firing.start)[n + 1] - (t :: fs.map Firing.start)[n] =
      period + alternating ((fs.map Firing.delay).take (n + 1)) := by
  induction n with
  | zero =>
    cases fs with
    | nil => exact absurd hn (Nat.lt_irrefl 1)
    | cons f fs =>
      have hf : f.start = t + period + f.delay := h.1
      show f.start - t = period + (f.delay - 0)
      omega
  | succ n ih =>
    have hgap := ih (Nat.lt_of_succ_lt hn)
    have hf : n + 1 < fs.length := by
      simp at hn
      omega
    have hlen : n + 1 < (fs.map Firing.delay).length := by simpa using hf
    rw [show (t :: fs.map Firing.start)[n + 1 + 1] = _ from h.two_before n hn hf,
      List.take_succ_eq_append_getElem hlen, alternating_snoc, List.getElem_map]
    omega

/-- Delays up to `d` add up in every other place. -/
theorem alternating_bounds {ds : List Int} {d : Int} (hd : ∀ x ∈ ds, 0 ≤ x ∧ x ≤ d) :
    -((ds.length / 2 : Nat) * d) ≤ alternating ds ∧
      alternating ds ≤ ((ds.length + 1) / 2 : Nat) * d := by
  induction ds using List.reverseRecOn with
  | nil => simp [alternating]
  | append_singleton ds x ih =>
    obtain ⟨hl, hu⟩ := ih fun y hy => hd y (List.mem_append_left _ hy)
    obtain ⟨h0, hx⟩ := hd x (by simp)
    have hhalf : (ds.length + 2) / 2 = ds.length / 2 + 1 := by omega
    rw [alternating_snoc, List.length_append, List.length_singleton, Nat.add_assoc, hhalf,
      Int.natCast_add, Int.add_mul]
    constructor
    · omega
    · omega

end Recurrence

/-! ## Captures that are late -/

/-- The times `t₀, t₁, …` never run ahead of the period: not from `t₀` on, not over any even number
of captures, and in no window. -/
structure Paced (period t₀ : Int) (ts : List Int) : Prop where
  start : ∀ n (h : n < ts.length), t₀ + n * period ≤ ts[n]
  pairs : ∀ n m (h : n + 2 * m < ts.length), ts[n] + 2 * m * period ≤ ts[n + 2 * m]
  window : ∀ (m : Nat) (a b : Int) (s : Finset Nat), b - a < 2 * m * period →
    (∀ n ∈ s, ∃ t, ts[n]? = some t ∧ a ≤ t ∧ t ≤ b) → s.card ≤ 2 * m

/-- **Captures that are never early keep two periods from the one before last**, however late they
are. -/
theorem starts_paced (hperiod : 0 < cfg.samplingPeriod) {es : List (Event γ)}
    (hset : ∀ now, Event.setTimer now ∉ es) {t₀ : Int} {st : State}
    (hlate : ∀ x ∈ delays cfg grabPicture t₀ st es, 0 ≤ x) :
    Paced cfg.samplingPeriod t₀ (starts cfg grabPicture t₀ st es) := by
  have hfollow : Follows cfg.samplingPeriod t₀ (t₀ + cfg.samplingPeriod)
    (firings cfg grabPicture (setTimer cfg t₀ st) es) := starts_follow hset t₀ st
  have hlate' : ∀ f ∈ firings cfg grabPicture (setTimer cfg t₀ st) es, 0 ≤ f.delay :=
    fun f hf => hlate _ (List.mem_map_of_mem hf)
  have hlag : Lagged 2 (2 * cfg.samplingPeriod) (starts cfg grabPicture t₀ st es) :=
    hfollow.lagged hlate'
  have htwice (m : Nat) : m • (2 * cfg.samplingPeriod) = 2 * m * cfg.samplingPeriod := by
    rw [nsmul_eq_mul, ← Int.mul_assoc, Int.mul_comm (m : Int) 2]
  have hpairs : ∀ n m (h : n + 2 * m < (starts cfg grabPicture t₀ st es).length),
      (starts cfg grabPicture t₀ st es)[n] + 2 * m * cfg.samplingPeriod ≤
        (starts cfg grabPicture t₀ st es)[n + 2 * m] := by
    intro n m h
    rw [← htwice]
    exact hlag.iterate m n h
  refine ⟨fun n h => ?_, hpairs, fun m a b s hw hs => ?_⟩
  · -- Pairs of periods from `setTimer`, or from the first capture on.
    rcases Nat.even_or_odd' n with ⟨m, rfl | rfl⟩
    · have hm := hpairs 0 m (by rwa [Nat.zero_add])
      simp only [Nat.zero_add] at hm
      push_cast
      exact hm
    · have hm := hpairs 1 m (by rwa [Nat.add_comm])
      have hone : 1 < (starts cfg grabPicture t₀ st es).length := by omega
      have h1 : t₀ + cfg.samplingPeriod ≤ (starts cfg grabPicture t₀ st es)[1] :=
        hfollow.first hlate' hone
      simp only [Nat.add_comm 1] at hm
      push_cast
      rw [Int.add_mul, Int.one_mul]
      omega
  · refine hlag.card_le (by decide) (by omega) ?_ hs
    rwa [htwice]

/-- A period of `10`. -/
def everyTen : Config := ⟨10, 100, "img"⟩

/-- Captures `1` and `3` are late by `4`. -/
def lateTwice : List (Event Buffer) := [.timeout 14 [], .timeout 20 [], .timeout 38 []]

theorem starts_paced_lateTwice :
    Paced everyTen.samplingPeriod 0 (starts everyTen id 0 State.init lateTwice) :=
  starts_paced (by decide) (fun _ => by simp [lateTwice]) (by decide)

/-- Neighbours are a period apart, give or take `d`. -/
def Steady (period d : Int) (ts : List Int) : Prop :=
  ts.IsChain fun t u => period - d ≤ u - t ∧ u - t ≤ period + d

/-- No delay exceeds `4`, and the third capture is `18` after the second. -/
theorem not_steady_lateTwice :
    starts everyTen id 0 State.init lateTwice = [0, 14, 20, 38] ∧
      (∀ x ∈ delays everyTen id 0 State.init lateTwice, 0 ≤ x ∧ x ≤ 4) ∧
      ¬ Steady everyTen.samplingPeriod 4 (starts everyTen id 0 State.init lateTwice).tail := by
  refine ⟨by decide, by decide, ?_⟩
  unfold Steady
  decide

/-- The times `t₀, t₁, …` of captures whose delays `ds` are at most `d`: the gaps take up the
delays in turn, and two gaps together one delay. -/
structure Swings (period d : Int) (ts ds : List Int) : Prop where
  gap : ∀ n (h : n + 1 < ts.length),
    ts[n + 1] - ts[n] = period + alternating (ds.take (n + 1))
  bounds : ∀ n (h : n + 1 < ts.length), period - ((n + 1) / 2 : Nat) * d ≤ ts[n + 1] - ts[n] ∧
    ts[n + 1] - ts[n] ≤ period + ((n + 2) / 2 : Nat) * d
  pair : ∀ n (h : n + 2 < ts.length), 2 * period ≤ ts[n + 2] - ts[n] ∧
    ts[n + 2] - ts[n] ≤ 2 * period + d

theorem Follows.swings {period t d : Int} {fs : List Firing}
    (h : Follows period t (t + period) fs) (hd : ∀ x ∈ fs.map Firing.delay, 0 ≤ x ∧ x ≤ d) :
    Swings period d (t :: fs.map Firing.start) (fs.map Firing.delay) := by
  refine ⟨h.gap, fun n hn => ?_, fun n hn => ?_⟩
  · rw [h.gap n hn]
    have hlen : ((fs.map Firing.delay).take (n + 1)).length = n + 1 := by
      rw [List.length_take, List.length_map]
      simp at hn
      omega
    obtain ⟨hl, hu⟩ := alternating_bounds fun x hx => hd x (List.mem_of_mem_take hx)
    rw [hlen] at hl hu
    have hu' : _ ≤ ((n + 2) / 2 : Nat) * d := hu
    omega
  · have hlt : n + 1 < fs.length := by
      simp at hn
      omega
    obtain ⟨h0, hle⟩ := hd _ (List.mem_map_of_mem (List.getElem_mem hlt))
    rw [h.two_before n hn hlt]
    omega

/-- **Captures that are late by up to `d` swing about the period**, further with every second
one. -/
theorem starts_swing {es : List (Event γ)} (hset : ∀ now, Event.setTimer now ∉ es) {t₀ : Int}
    {st : State} {d : Int} (hlate : ∀ x ∈ delays cfg grabPicture t₀ st es, 0 ≤ x ∧ x ≤ d) :
    Swings cfg.samplingPeriod d (starts cfg grabPicture t₀ st es)
      (delays cfg grabPicture t₀ st es) :=
  (starts_follow hset t₀ st).swings hlate

theorem starts_swing_lateTwice :
    Swings everyTen.samplingPeriod 4 (starts everyTen id 0 State.init lateTwice)
      (delays everyTen id 0 State.init lateTwice) :=
  starts_swing (fun _ => by simp [lateTwice]) (by decide)

end Camerasp.Timer
