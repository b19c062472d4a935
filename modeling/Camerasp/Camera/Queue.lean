import Camerasp.Lib.Chain
import Camerasp.Lib.Machine
import Mathlib.Algebra.Ring.Nat
import Mathlib.Data.Fintype.Basic

/-!
# Queues of buffer headers (`mmal_queue.c`)

Any number of queues `ι` link the headers `η` through the one field `next` that a header has.
`last` is a pointer to a pointer: to `first` of its queue, or to `next` of a header. A call holds
the lock of its queue from its start to its end, and is one step. `mmal_queue_get` waits for the
semaphore with the lock held (`Blocked`), which the source says "will always succeed".

Results:
* `Holding.put`, `Holding.putBack`, `Holding.get_cons`: on headers that are in no queue the calls do
  what they do to lists.
* `Holding.put_queued`, `Holding.putBack_queued`: on a header that is in a queue they do not.
* `run_holding_iff`: in every run the queues are always lists, of which no two share a header and
  each has the length it says, exactly where no header is put while it is in a queue.
* `run_refines`: no such run is blocked, and it does what the calls do to lists.
-/

namespace Camerasp.Camera

open Camerasp.Lib (Machine Segment segment_append segment_snoc)

/-- What `last` points to. -/
inductive Link (η : Type*)
  | first
  | next (b : η)
  deriving DecidableEq

/-- `MMAL_QUEUE_T`. -/
structure MmalQueue (η : Type*) where
  length : UInt32
  first : Option η
  last : Link η
  semaphore : Nat

/-- The queues, and the field `next` of the headers. -/
structure Queues (ι η : Type*) where
  queue : ι → MmalQueue η
  next : η → Option η

variable {ι η : Type*}

namespace Queues

section Calls
variable [DecidableEq ι] [DecidableEq η]

/-- `mmal_queue_create`, for every queue. -/
def create : Queues ι η where
  queue _ := ⟨0, none, .first, 0⟩
  next _ := none

def setQueue (s : Queues ι η) (i : ι) (q : MmalQueue η) : Queues ι η :=
  { s with queue := Function.update s.queue i q }

def setNext (s : Queues ι η) (b : η) (p : Option η) : Queues ι η :=
  { s with next := Function.update s.next b p }

/-- `*queue->last = p`. -/
def setLast (s : Queues ι η) (i : ι) (p : Option η) : Queues ι η :=
  match (s.queue i).last with
  | .first => s.setQueue i { s.queue i with first := p }
  | .next a => s.setNext a p

/-- `mmal_queue_put`. -/
def put (s : Queues ι η) (i : ι) (b : η) : Queues ι η :=
  let s := s.setQueue i { s.queue i with length := (s.queue i).length + 1 }
  let s := s.setLast i (some b)
  let s := s.setNext b none
  s.setQueue i { s.queue i with last := .next b, semaphore := (s.queue i).semaphore + 1 }

/-- `mmal_queue_put_back`. -/
def putBack (s : Queues ι η) (i : ι) (b : η) : Queues ι η :=
  let q := s.queue i
  (s.setNext b q.first).setQueue i
    { length := q.length + 1
      first := some b
      last := if q.last = .first then .next b else q.last
      semaphore := q.semaphore + 1 }

/-- `mmal_queue_get`; `none` where it waits. -/
def get (s : Queues ι η) (i : ι) : Option (Queues ι η × Option η) :=
  let q := s.queue i
  match q.first with
  | none => some (s, none)
  | some b =>
    if q.semaphore = 0 then none
    else
      some (s.setQueue i
        { length := q.length - 1
          first := s.next b
          last := if s.next b = none then .first else q.last
          semaphore := q.semaphore - 1 }, some b)

end Calls

end Queues

/-- A call on a queue. -/
inductive QueueCall (ι η : Type*)
  | put (i : ι) (b : η)
  | putBack (i : ι) (b : η)
  | get (i : ι)

/-- The call waits with the lock held. -/
structure Blocked

/-- The queues under calls; what `mmal_queue_get` returns is the output. -/
def queues [DecidableEq ι] [DecidableEq η] :
    Machine (Queues ι η) (QueueCall ι η) (Option η) Blocked where
  exec s
    | .put i b => .ok (s.put i b, none)
    | .putBack i b => .ok (s.putBack i b, none)
    | .get i =>
      match s.get i with
      | some r => .ok r
      | none => .error ⟨⟩

/-! ## Queues as lists -/

/-- The pointer to the end of a list. -/
def endOf (l : List η) : Link η :=
  match l.getLast? with
  | none => .first
  | some b => .next b

/-- The queue `i` is the list `l`. -/
structure Queues.Holds (s : Queues ι η) (i : ι) (l : List η) : Prop where
  segment : Segment s.next (s.queue i).first l none
  last : (s.queue i).last = endOf l
  length : (s.queue i).length = UInt32.ofNat l.length
  semaphore : (s.queue i).semaphore = l.length

/-- The queues are the lists `l`, which share no header. -/
structure Queues.Holding (s : Queues ι η) (l : ι → List η) : Prop where
  holds : ∀ i, s.Holds i (l i)
  apart : ∀ i j b, b ∈ l i → b ∈ l j → i = j

@[simp] theorem endOf_nil : endOf ([] : List η) = .first := rfl

@[simp] theorem endOf_append (l : List η) (b : η) : endOf (l ++ [b]) = .next b := by
  simp [endOf]

theorem endOf_cons (b : η) (l : List η) :
    endOf (b :: l) = if l = [] then .next b else endOf l := by
  cases l with
  | nil => rfl
  | cons a l => simp [endOf, List.getLast?_cons_cons]

theorem endOf_eq_first {l : List η} : endOf l = .first ↔ l = [] := by
  obtain rfl | ⟨m, a, rfl⟩ := l.eq_nil_or_concat <;> simp

/-- The header is met from the first one of a queue on. -/
def Queues.Queued (s : Queues ι η) (b : η) : Prop :=
  ∃ i l, Segment s.next (s.queue i).first l (some b)

namespace Queues

variable {s s' : Queues ι η} {i j : ι} {a b : η} {l : ι → List η} {m : List η}

/-- A queue stays as it is where its record and the pointers of its headers do. -/
theorem Holds.frame (h : s.Holds j m) (hq : s'.queue j = s.queue j)
    (hn : ∀ a ∈ m, s'.next a = s.next a) : s'.Holds j m where
  segment := hq ▸ h.segment.congr hn
  last := hq ▸ h.last
  length := hq ▸ h.length
  semaphore := hq ▸ h.semaphore

theorem Holds.nodup (h : s.Holds j m) : m.Nodup := h.segment.nodup

/-- The header that `last` points to is in the queue. -/
theorem Holding.mem_of_last (h : s.Holding l) (hb : (s.queue i).last = .next b) : b ∈ l i := by
  obtain hnil | ⟨m, a, hl⟩ := (l i).eq_nil_or_concat
  · rw [(h.holds i).last, hnil] at hb
    cases hb
  · rw [(h.holds i).last, hl, List.concat_eq_append, endOf_append] at hb
    cases hb
    simp [hl]

/-- Where a header is in a list, what is before it is linked to it. -/
theorem Holding.segment_of_mem (h : s.Holding l) (hb : b ∈ l j) :
    ∃ m m', l j = m ++ b :: m' ∧ b ∉ m ∧ Segment s.next (s.queue j).first m (some b) := by
  obtain ⟨m, m', hl⟩ := List.append_of_mem hb
  have hnodup := (h.holds j).nodup
  rw [hl, List.nodup_append] at hnodup
  have hsegment := (h.holds j).segment
  rw [hl, segment_append] at hsegment
  obtain ⟨r, hm, rfl, -⟩ := hsegment
  exact ⟨m, m', hl, fun hbm => hnodup.2.2 b hbm b List.mem_cons_self rfl, hm⟩

/-- A header is met in the queues exactly where it is in one of the lists. -/
theorem Holding.queued_iff (h : s.Holding l) : s.Queued b ↔ ∃ i, b ∈ l i := by
  constructor
  · rintro ⟨i, m, hm⟩
    exact ⟨i, hm.mem (h.holds i).segment⟩
  · rintro ⟨i, hb⟩
    obtain ⟨m, -, -, -, hm⟩ := h.segment_of_mem hb
    exact ⟨i, m, hm⟩

section
variable [DecidableEq ι]

/-- Lists stay apart where one takes headers that are in none. -/
theorem Holding.apart_update (h : s.Holding l)
    (hm : ∀ b ∈ m, b ∈ l i ∨ ∀ j, b ∉ l j) (j k : ι) (b : η)
    (hj : b ∈ Function.update l i m j) (hk : b ∈ Function.update l i m k) : j = k := by
  have hother (k : ι) (hki : k ≠ i) (hb : b ∈ m) (hk : b ∈ l k) : i = k :=
    (hm b hb).elim (fun hi => h.apart i k b hi hk) fun hn => absurd hk (hn k)
  by_cases hji : j = i <;> by_cases hki : k = i
  · rw [hji, hki]
  · subst hji
    rw [Function.update_self] at hj
    rw [Function.update_of_ne hki] at hk
    exact hother k hki hj hk
  · subst hki
    rw [Function.update_self] at hk
    rw [Function.update_of_ne hji] at hj
    exact (hother j hji hk hj).symm
  · rw [Function.update_of_ne hji] at hj
    rw [Function.update_of_ne hki] at hk
    exact h.apart j k b hj hk

/-- A call on the queue `i` that changes the pointers of `changed` only. -/
theorem Holding.call (h : s.Holding l) (changed : List η)
    (hi : s'.Holds i m) (hm : ∀ b ∈ m, b ∈ l i ∨ ∀ j, b ∉ l j)
    (hq : ∀ j, j ≠ i → s'.queue j = s.queue j)
    (hn : ∀ a, a ∉ changed → s'.next a = s.next a)
    (hc : ∀ a ∈ changed, a ∈ l i ∨ ∀ j, a ∉ l j) :
    s'.Holding (Function.update l i m) where
  apart := h.apart_update hm
  holds j := by
    by_cases hji : j = i
    · subst hji
      rwa [Function.update_self]
    · rw [Function.update_of_ne hji]
      refine (h.holds j).frame (hq j hji) fun a ha => hn a fun hac => ?_
      obtain hai | hnone := hc a hac
      · exact hji (h.apart j i a ha hai)
      · exact hnone j ha

theorem get_of_some (h : (s.queue i).first = some b) (hs : (s.queue i).semaphore ≠ 0) :
    s.get i = some (s.setQueue i
      ⟨(s.queue i).length - 1, s.next b, if s.next b = none then .first else (s.queue i).last,
        (s.queue i).semaphore - 1⟩, some b) := by
  simp [get, h, hs]

/-- **`mmal_queue_get` takes the first header, and does not wait.** -/
theorem Holding.get_cons (h : s.Holding l) (hl : l i = b :: m) :
    ∃ s', s.get i = some (s', some b) ∧ s'.Holding (Function.update l i m) := by
  have hi := h.holds i
  rw [hl] at hi
  obtain ⟨hfirst, hrest⟩ := hi.segment
  have hsemaphore : (s.queue i).semaphore ≠ 0 := by simp [hi.semaphore]
  refine ⟨_, get_of_some hfirst hsemaphore, h.call [] ?_ (fun x hx => .inl ?_) (fun j hj => ?_)
    (fun _ _ => rfl) (by simp)⟩
  · refine ⟨?_, ?_, ?_, ?_⟩
    · simpa [setQueue] using hrest
    · cases m with
      | nil => simp [setQueue, show s.next b = none from hrest]
      | cons c m => simp [setQueue, hrest.1, hi.last, endOf_cons]
    · simp [setQueue, hi.length]
    · simp [setQueue, hi.semaphore]
  · rw [hl]
    exact List.mem_cons_of_mem _ hx
  · simp [setQueue, Function.update_of_ne hj]

theorem Holding.get_nil (h : s.Holding l) (hl : l i = []) : s.get i = some (s, none) := by
  have hi := h.holds i
  rw [hl] at hi
  have hfirst : (s.queue i).first = none := hi.segment
  simp [Queues.get, hfirst]

end

variable [DecidableEq ι] [DecidableEq η]

theorem put_of_first (h : (s.queue i).last = .first) :
    s.put i b = (s.setNext b none).setQueue i ⟨(s.queue i).length + 1, some b, .next b,
      (s.queue i).semaphore + 1⟩ := by
  simp [put, setLast, setQueue, setNext, h]

theorem put_of_next (h : (s.queue i).last = .next a) :
    s.put i b = ((s.setNext a (some b)).setNext b none).setQueue i ⟨(s.queue i).length + 1,
      (s.queue i).first, .next b, (s.queue i).semaphore + 1⟩ := by
  simp [put, setLast, setQueue, setNext, h]

/-- **`mmal_queue_put` puts a header that is in no queue behind the others.** -/
theorem Holding.put (h : s.Holding l) (hb : ∀ j, b ∉ l j) :
    (s.put i b).Holding (Function.update l i (l i ++ [b])) := by
  have hi := h.holds i
  have hm : ∀ x ∈ l i ++ [b], x ∈ l i ∨ ∀ j, x ∉ l j := by
    intro x hx
    obtain hx | hx := List.mem_append.mp hx
    · exact .inl hx
    · exact .inr (List.mem_singleton.mp hx ▸ hb)
  obtain hnil | ⟨m, a, hl⟩ := (l i).eq_nil_or_concat
  · have hlast : (s.queue i).last = .first := by rw [hi.last, hnil]; rfl
    rw [put_of_first hlast]
    refine h.call [b] ?_ hm (fun j hj => ?_) (fun x hx => ?_) ?_
    · refine ⟨?_, ?_, ?_, ?_⟩
      · simp [setQueue, setNext, hnil, Segment]
      · simp [setQueue]
      · simp [setQueue, setNext, hi.length, hnil]
      · simp [setQueue, setNext, hi.semaphore, hnil]
    · simp [setQueue, setNext, Function.update_of_ne hj]
    · simp [setQueue, setNext, Function.update_of_ne (List.ne_of_not_mem_cons hx)]
    · simpa using .inr hb
  · rw [List.concat_eq_append] at hl
    have hlast : (s.queue i).last = .next a := by rw [hi.last, hl, endOf_append]
    have hab : a ≠ b := by
      rintro rfl
      exact hb i (by simp [hl])
    have hma : a ∉ m := by
      have := hi.nodup
      rw [hl, List.nodup_append] at this
      exact fun ha => this.2.2 a ha a (List.mem_singleton_self a) rfl
    have hsegment := hi.segment
    rw [hl, segment_snoc] at hsegment
    have hbm : b ∉ m := fun hbm => hb i (by simp [hl, hbm])
    rw [put_of_next hlast]
    refine h.call [a, b] ?_ hm (fun j hj => ?_) (fun x hx => ?_) ?_
    · refine ⟨?_, ?_, ?_, ?_⟩
      · rw [hl, segment_snoc, segment_snoc]
        refine ⟨⟨?_, ?_⟩, ?_⟩
        · simpa [setQueue, setNext] using (hsegment.1.update hma (some b)).update hbm none
        · simp [setQueue, setNext, Function.update_of_ne hab]
        · simp [setQueue, setNext]
      · simp [setQueue]
      · simp [setQueue, setNext, hi.length, UInt32.ofNat_add]
      · simp [setQueue, setNext, hi.semaphore]
    · simp [setQueue, setNext, Function.update_of_ne hj]
    · simp only [List.mem_cons, List.not_mem_nil, or_false, not_or] at hx
      simp [setQueue, setNext, Function.update_of_ne hx.1, Function.update_of_ne hx.2]
    · simp only [List.forall_mem_cons, List.not_mem_nil, false_imp_iff, implies_true, and_true]
      exact ⟨.inl (by simp [hl]), .inr hb⟩

/-- **`mmal_queue_put_back` puts a header that is in no queue before the others.** -/
theorem Holding.putBack (h : s.Holding l) (hb : ∀ j, b ∉ l j) :
    (s.putBack i b).Holding (Function.update l i (b :: l i)) := by
  have hi := h.holds i
  refine h.call [b] ?_ (fun x hx => ?_) (fun j hj => ?_) (fun x hx => ?_) ?_
  · refine ⟨⟨?_, ?_⟩, ?_, ?_, ?_⟩
    · simp [Queues.putBack, setQueue]
    · simpa [Queues.putBack, setQueue, setNext] using hi.segment.update (hb i) (s.queue i).first
    · simp only [Queues.putBack, setQueue, Function.update_self, endOf_cons, hi.last]
      by_cases hnil : l i = []
      · simp [hnil]
      · rw [if_neg (mt endOf_eq_first.mp hnil), if_neg hnil]
    · simp [Queues.putBack, setQueue, hi.length, UInt32.ofNat_add]
    · simp [Queues.putBack, setQueue, hi.semaphore]
  · obtain rfl | hx := List.mem_cons.mp hx
    · exact .inr hb
    · exact .inl hx
  · simp [Queues.putBack, setQueue, setNext, Function.update_of_ne hj]
  · simp [Queues.putBack, setQueue, setNext,
      Function.update_of_ne (List.ne_of_not_mem_cons hx)]
  · simpa using .inr hb

/-! ## A header that is in a queue -/

theorem put_next_of_ne {x : η} (hb : x ≠ b) (hx : (s.queue i).last ≠ .next x) :
    (s.put i b).next x = s.next x := by
  cases hlast : (s.queue i).last with
  | first => simp [put_of_first hlast, setQueue, setNext, Function.update_of_ne hb]
  | next a =>
    have hxa : x ≠ a := by
      rintro rfl
      exact hx hlast
    simp [put_of_next hlast, setQueue, setNext, Function.update_of_ne hb, Function.update_of_ne hxa]

theorem put_next_self : (s.put i b).next b = none := by
  cases hlast : (s.queue i).last with
  | first => simp [put_of_first hlast, setQueue, setNext]
  | next a => simp [put_of_next hlast, setQueue, setNext]

theorem put_last : ((s.put i b).queue i).last = .next b := by
  simp [put, setQueue]

theorem put_semaphore : ((s.put i b).queue i).semaphore = (s.queue i).semaphore + 1 := by
  cases hlast : (s.queue i).last with
  | first => simp [put_of_first hlast, setQueue]
  | next a => simp [put_of_next hlast, setQueue]

/-- What is first in a queue stays first, unless the queue is empty. -/
theorem put_first (h : j = i → (s.queue i).last ≠ .first) :
    ((s.put i b).queue j).first = (s.queue j).first := by
  cases hlast : (s.queue i).last with
  | first =>
    have hji : j ≠ i := fun hji => h hji hlast
    simp [put_of_first hlast, setQueue, setNext, Function.update_of_ne hji]
  | next a =>
    by_cases hji : j = i
    · subst hji
      simp [put_of_next hlast, setQueue]
    · simp [put_of_next hlast, setQueue, setNext, Function.update_of_ne hji]

/-- **A header that is put while it is in a queue cuts off what is behind it, or is in two
queues.** -/
theorem Holding.put_queued (h : s.Holding l) (hb : b ∈ l j) {l' : ι → List η} :
    ¬(s.put i b).Holding l' := by
  intro h'
  obtain ⟨m, m', hl, hbm, hm⟩ := h.segment_of_mem hb
  -- the headers before `b` are still linked to it, and it is the last one
  have hlink (x : η) (hx : x ∈ m) : (s.put i b).next x = s.next x := by
    refine put_next_of_ne (ne_of_mem_of_not_mem hx hbm) fun hlast => ?_
    obtain rfl := h.apart i j x (h.mem_of_last hlast) (by simp [hl, hx])
    have hend := (h.holds i).last
    obtain ⟨w, z, hw⟩ : ∃ w z, b :: m' = w ++ [z] :=
      ⟨_, _, (List.dropLast_append_getLast (List.cons_ne_nil b m')).symm⟩
    rw [hlast, hl, hw, ← List.append_assoc, endOf_append] at hend
    cases hend
    have hnodup := (h.holds i).nodup
    rw [hl, hw, List.nodup_append] at hnodup
    exact hnodup.2.2 x hx x (by simp) rfl
  have hfirst : ((s.put i b).queue j).first = (s.queue j).first := by
    refine put_first fun hji hlast => ?_
    subst hji
    rw [(h.holds j).last, endOf_eq_first] at hlast
    simp [hlast] at hb
  have hchain : l' j = m ++ [b] := by
    refine (h'.holds j).segment.eq ?_
    rw [segment_snoc, hfirst]
    exact ⟨hm.congr hlink, put_next_self⟩
  obtain rfl : i = j := h'.apart i j b (h'.mem_of_last put_last) (by simp [hchain])
  have hsemaphore := (h'.holds i).semaphore
  rw [put_semaphore, (h.holds i).semaphore, hchain, hl] at hsemaphore
  simp only [List.length_append, List.length_cons, List.length_nil] at hsemaphore
  omega

/-- **A header that is put back while it is in a queue is linked to itself, or is in two
queues.** -/
theorem Holding.putBack_queued (h : s.Holding l) (hb : b ∈ l j) {l' : ι → List η} :
    ¬(s.putBack i b).Holding l' := by
  intro h'
  obtain ⟨m, m', hl, hbm, hm⟩ := h.segment_of_mem hb
  have hlink (x : η) (hx : x ∈ m) : (s.putBack i b).next x = s.next x := by
    simp [Queues.putBack, setQueue, setNext, Function.update_of_ne (ne_of_mem_of_not_mem hx hbm)]
  have hi := (h'.holds i).segment
  have hfirst : ((s.putBack i b).queue i).first = some b := by simp [Queues.putBack, setQueue]
  rw [hfirst] at hi
  have hwhole : Segment (s.putBack i b).next (s.queue j).first (m ++ l' i) none :=
    segment_append.mpr ⟨_, hm.congr hlink, hi⟩
  obtain ⟨t, ht⟩ : ∃ t, l' i = b :: t := by
    cases hli : l' i with
    | nil => rw [hli] at hi; cases hi
    | cons c t =>
      rw [hli] at hi
      exact ⟨t, by rw [Option.some.inj hi.1]⟩
  by_cases hji : j = i
  · subst hji
    rw [ht] at hi
    have hnext : (s.putBack j b).next b = (s.queue j).first := by
      simp [Queues.putBack, setQueue, setNext]
    have hlength := congrArg List.length (Segment.eq (hnext ▸ hi.2) hwhole)
    rw [ht] at hlength
    simp only [List.length_append, List.length_cons] at hlength
    omega
  · have hfirst : ((s.putBack i b).queue j).first = (s.queue j).first := by
      simp [Queues.putBack, setQueue, setNext, Function.update_of_ne hji]
    have hchain : l' j = m ++ l' i := (h'.holds j).segment.eq (hfirst ▸ hwhole)
    exact hji (h'.apart j i b (by simp [hchain, ht]) (by simp [ht]))

end Queues

/-! ## Runs -/

theorem holding_create : (Queues.create : Queues ι η).Holding fun _ => [] where
  holds _ := ⟨rfl, rfl, rfl, rfl⟩
  apart _ _ _ hb := absurd hb List.not_mem_nil

section Runs
variable [DecidableEq ι] [DecidableEq η]

/-- The queues as lists. -/
def lists : Machine (ι → List η) (QueueCall ι η) (Option η) Empty where
  exec l
    | .put i b => .ok (Function.update l i (l i ++ [b]), none)
    | .putBack i b => .ok (Function.update l i (b :: l i), none)
    | .get i =>
      match l i with
      | [] => .ok (l, none)
      | b :: m => .ok (Function.update l i m, some b)

/-- The call puts no header that is in a queue. -/
def PutsOnce (s : Queues ι η) : QueueCall ι η → Prop
  | .put _ b | .putBack _ b => ¬s.Queued b
  | .get _ => True

variable {s : Queues ι η} {l : ι → List η}

/-- The same of the lists behind the queues. -/
def PutsNew (l : ι → List η) : QueueCall ι η → Prop
  | .put _ b | .putBack _ b => ∀ j, b ∉ l j
  | .get _ => True

instance [Fintype ι] (l : ι → List η) : (c : QueueCall ι η) → Decidable (PutsNew l c)
  | .put _ b => inferInstanceAs (Decidable (∀ j, b ∉ l j))
  | .putBack _ b => inferInstanceAs (Decidable (∀ j, b ∉ l j))
  | .get _ => isTrue trivial

omit [DecidableEq ι] [DecidableEq η] in
theorem Queues.Holding.putsOnce_iff (h : s.Holding l) (c : QueueCall ι η) :
    PutsOnce s c ↔ PutsNew l c := by
  cases c <;> simp [PutsOnce, PutsNew, h.queued_iff]

theorem Queues.Holding.step (h : s.Holding l) {c : QueueCall ι η} (hc : PutsOnce s c) :
    ∃ s' l' o, queues.exec s c = .ok (s', o) ∧ lists.exec l c = .ok (l', o) ∧ s'.Holding l' := by
  cases c with
  | put i b =>
    exact ⟨_, _, none, rfl, rfl, h.put ((h.putsOnce_iff _).mp hc)⟩
  | putBack i b =>
    exact ⟨_, _, none, rfl, rfl, h.putBack ((h.putsOnce_iff _).mp hc)⟩
  | get i =>
    cases hl : l i with
    | nil => exact ⟨s, l, none, by simp [queues, h.get_nil hl], by simp [lists, hl], h⟩
    | cons b m =>
      obtain ⟨s', hs', h'⟩ := h.get_cons hl
      exact ⟨s', _, some b, by simp [queues, hs'], by simp [lists, hl], h'⟩

/-- **A call keeps the queues lists exactly where it puts no header that is in one.** -/
theorem Queues.Holding.step_iff (h : s.Holding l) (c : QueueCall ι η) : PutsOnce s c ↔
    ∀ s' o, queues.exec s c = .ok (s', o) → ∃ l', s'.Holding l' := by
  constructor
  · intro hc s' o hs'
    obtain ⟨s'', l', o', he, -, h'⟩ := h.step hc
    obtain ⟨rfl, -⟩ := Prod.ext_iff.mp (Except.ok.inj (he.symm.trans hs'))
    exact ⟨l', h'⟩
  · intro hstep
    cases c with
    | put i b =>
      intro hqueued
      obtain ⟨j, hb⟩ := h.queued_iff.mp hqueued
      obtain ⟨l', h'⟩ := hstep _ none rfl
      exact h.put_queued hb h'
    | putBack i b =>
      intro hqueued
      obtain ⟨j, hb⟩ := h.queued_iff.mp hqueued
      obtain ⟨l', h'⟩ := hstep _ none rfl
      exact h.putBack_queued hb h'
    | get i => trivial

/-- **In a run the queues are always lists that share no header, of the lengths they say, exactly
where no header is put while it is in a queue.** -/
theorem run_holding_iff (cs : List (QueueCall ι η)) :
    queues.Always (fun s => ∃ l, s.Holding l) .create cs ↔
      queues.Steps (fun s c _ => PutsOnce s c) .create cs :=
  Machine.always_iff_steps (fun _ c ⟨_, h⟩ => h.step_iff c) ⟨_, holding_create⟩ cs

/-- The lists tell it of a whole run. -/
theorem steps_putsOnce {cs : List (QueueCall ι η)}
    (hc : lists.Steps (fun l c _ => PutsNew l c) (fun _ => []) cs) :
    queues.Steps (fun s c _ => PutsOnce s c) .create cs := by
  have h : (Queues.create : Queues ι η).Holding fun _ => [] := holding_create
  generalize (Queues.create : Queues ι η) = s at h ⊢
  generalize (fun _ => [] : ι → List η) = l at h hc
  induction cs generalizing s l with
  | nil => trivial
  | cons c cs ih =>
    have hputs := (h.putsOnce_iff c).mpr hc.1
    obtain ⟨s', l', o, hs, hl, h'⟩ := h.step hputs
    refine ⟨hputs, fun s'' o' hs'' => ?_⟩
    cases hs.symm.trans hs''
    exact ih s' l' h' (hc.2 l' o hl)

/-- **Such a run is never blocked, and does what the calls do to lists**: it gets the same headers,
and leaves the same lists. -/
theorem run_refines {cs : List (QueueCall ι η)}
    (hc : queues.Steps (fun s c _ => PutsOnce s c) .create cs) :
    ∃ s l, queues.run .create cs = .ok s ∧ lists.run (fun _ => []) cs = .ok l ∧ s.Holding l ∧
      queues.log .create cs = lists.log (fun _ => []) cs := by
  have h : (Queues.create : Queues ι η).Holding fun _ => [] := holding_create
  generalize (Queues.create : Queues ι η) = s at h hc ⊢
  generalize (fun _ => [] : ι → List η) = l at h ⊢
  induction cs generalizing s l with
  | nil => exact ⟨s, l, rfl, rfl, h, rfl⟩
  | cons c cs ih =>
    obtain ⟨s', l', o, hs, hl, h'⟩ := h.step hc.1
    obtain ⟨t, m, ht, hm, hend, hlog⟩ := ih s' (hc.2 s' o hs) l' h'
    refine ⟨t, m, ?_, ?_, hend, ?_⟩
    · rwa [Machine.run_cons_ok hs]
    · rwa [Machine.run_cons_ok hl]
    · rw [Machine.log_cons_ok hs, Machine.log_cons_ok hl, hlog]

/-- A header goes from one queue to the front of the other. -/
theorem run_refines_two : ∃ (s : Queues Bool Nat) (l : Bool → List Nat),
    queues.run .create [.put false 0, .put true 1, .get false, .putBack true 0, .get true] = .ok s ∧
    lists.run (fun _ => []) [.put false 0, .put true 1, .get false, .putBack true 0, .get true] =
      .ok l ∧
    s.Holding l ∧
    queues.log .create [.put false 0, .put true 1, .get false, .putBack true 0, .get true] =
      lists.log (fun _ => []) [.put false 0, .put true 1, .get false, .putBack true 0, .get true] :=
  run_refines (steps_putsOnce (by decide))

end Runs

end Camerasp.Camera
