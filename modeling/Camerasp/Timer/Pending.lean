import Camerasp.Lib.Word
import Camerasp.Timer.Threads

/-!
# What `pending_count` counts

`handle_timeout` raises `pending_count` before it decides whether to post the save, and takes it
down again where it does not; `save_file` takes it down at its end. `always_accounted`: in every
state of every run it is the number of posted saves that are not finished and of handlers before
their decision, and there are never more such saves than the guard allows.

The guard compares what the increment has returned, which others may have passed since. What keeps
the bound is that the handlers whose comparison will succeed are counted with the saves
(`Balanced.admitted`).
-/

namespace Camerasp.Timer

open Camerasp.Lib

variable {γ : Type*} {cfg : Config} {grabPicture : γ → Buffer} {p : Process}

/-- Between its increment of `pending_count` and its decision. -/
def Handler.counted (h : Handler) : Bool :=
  match h.stage with
  | .counted .. => true
  | _ => false

/-- It will decide to post its save. -/
def Handler.admitted (cfg : Config) (h : Handler) : Bool :=
  match h.stage with
  | .counted _ _ _ filesInQueue => postsSave cfg filesInQueue
  | _ => false

/-- The most saves the guard allows: `max_file_count / 10 - 1`, and at least `9`. -/
def saveLimit (cfg : Config) : Int := max (cfg.maxFileCount.toInt.tdiv 10 - 1) 9

/-- **What `pending_count` is in a state, and how many saves there are.** -/
structure Accounted (cfg : Config) (p : Process) : Prop where
  count : p.pendingCount.toInt = p.saves.length + p.running.countP Handler.counted
  nonneg : 0 ≤ p.pendingCount.toInt
  limit : p.saves.length ≤ saveLimit cfg

/-- What keeps `Accounted`. -/
structure Balanced (cfg : Config) (p : Process) : Prop where
  count : p.pendingCount.toInt = p.saves.length + p.running.countP Handler.counted
  admitted : p.saves.length + p.running.countP (Handler.admitted cfg) ≤ saveLimit cfg
  threads : p.running.length ≤ workers

theorem Balanced.accounted (hb : Balanced cfg p) : Accounted cfg p := by
  have hcount := hb.count
  have hadmitted := hb.admitted
  exact ⟨hcount, by omega, by omega⟩

/-- The guard, on integers. -/
theorem postsSave_iff (cfg : Config) (n : Int32) : postsSave cfg n ↔ n.toInt ≤ saveLimit cfg := by
  have h10 : (10 : Int32).toInt = 10 := rfl
  have hdiv : (cfg.maxFileCount / 10).toInt = cfg.maxFileCount.toInt.tdiv 10 :=
    Int32.toInt_div_of_ne_right _ _ (by decide)
  unfold postsSave saveLimit
  rw [Bool.or_eq_true, decide_eq_true_eq, decide_eq_true_eq, Int32.lt_iff_toInt_lt,
    Int32.lt_iff_toInt_lt, hdiv, h10]
  omega

theorem saveLimit_lt (cfg : Config) : saveLimit cfg < 2 ^ 30 := by
  have hu := cfg.maxFileCount.toInt_lt
  have hle : cfg.maxFileCount.toInt.tdiv 10 ≤ 214748364 := by
    have hsign : Int.sign 10 = 1 := rfl
    rw [Int.tdiv_eq_ediv]
    split_ifs <;> omega
  unfold saveLimit
  omega

theorem Handler.counted_of_admitted {h : Handler} (ha : h.admitted cfg) : h.counted := by
  unfold Handler.admitted at ha
  unfold Handler.counted
  split at ha
  · rfl
  · cases ha

theorem admitted_le_counted (cfg : Config) (hs : List Handler) :
    hs.countP (Handler.admitted cfg) ≤ hs.countP Handler.counted :=
  List.countP_mono_left fun _ _ => Handler.counted_of_admitted

/-! ## The steps -/

theorem Balanced.of_same {p' : Process} (hb : Balanced cfg p)
    (hcount : p'.pendingCount = p.pendingCount) (hrunning : p'.running = p.running)
    (hsaves : p'.saves.length = p.saves.length) : Balanced cfg p' := by
  refine ⟨?_, ?_, ?_⟩
  · rw [hcount, hrunning, hsaves]
    exact hb.count
  · rw [hrunning, hsaves]
    exact hb.admitted
  · rw [hrunning]
    exact hb.threads

section Handler

variable {pre post : List Handler} {x : Handler}

/-- A step away from the counter, of a handler that is not before its decision. -/
theorem Balanced.replaced {p' : Process} (hb : Balanced cfg p) (h : p.running = pre ++ x :: post)
    (hx : x.counted = false) {r : Option Handler} (hr : ∀ y ∈ r, y.counted = false)
    (hcount : p'.pendingCount = p.pendingCount) (hsaves : p'.saves = p.saves)
    (hrunning : p'.running = pre ++ (r.toList ++ post)) : Balanced cfg p' := by
  have hnone (f : Handler → Bool) (hf : ∀ y, f y → y.counted) :
      p'.running.countP f = p.running.countP f := by
    have hfx : f x = false := by
      rw [Bool.eq_false_iff]
      intro ht
      rw [hf x ht] at hx
      cases hx
    have hfr : r.elim 0 (fun y => (f y).toNat) = 0 := by
      cases r with
      | none => rfl
      | some y =>
        rw [Option.elim_some, Bool.toNat_eq_zero, Bool.eq_false_iff]
        intro ht
        have hy := hf y ht
        rw [hr y rfl] at hy
        cases hy
    rw [hrunning, countP_replaced, countP_split f h, hfr, hfx]
    rfl
  refine ⟨?_, ?_, ?_⟩
  · rw [hcount, hsaves, hnone _ fun _ => id]
    exact hb.count
  · rw [hsaves, hnone _ fun _ => Handler.counted_of_admitted]
    exact hb.admitted
  · rw [hrunning]
    exact Nat.le_trans (length_replaced_le h r) hb.threads

/-- A step that moves the counter as it moves the handler and the saves. -/
theorem Balanced.stepped {p' : Process} {y : Handler} (hb : Balanced cfg p)
    (h : p.running = pre ++ x :: post) (hrunning : p'.running = pre ++ y :: post)
    (hcount : p'.pendingCount.toInt - p'.saves.length - y.counted.toNat =
      p.pendingCount.toInt - p.saves.length - x.counted.toNat)
    (hadmitted : (p'.saves.length : Int) + (pre.countP (Handler.admitted cfg) +
      post.countP (Handler.admitted cfg) + (y.admitted cfg).toNat : Nat) ≤ saveLimit cfg) :
    Balanced cfg p' := by
  have hbefore := hb.count
  have hcounted := countP_split Handler.counted h
  have hcounted' := countP_split Handler.counted hrunning
  refine ⟨by omega, ?_, ?_⟩
  · rw [countP_split (Handler.admitted cfg) hrunning]
    exact hadmitted
  · rw [hrunning]
    exact Nat.le_trans (length_replaced_le h (some y)) hb.threads

section Decision

variable {aborted : Bool} {current : Int} {next : Slot} {image : Buffer} {filesInQueue : Int32}

/-- The increment: the handler joins those before their decision. What it has read is the count,
so it is admitted only where there is room. -/
theorem Balanced.increments {p' : Process} (hb : Balanced cfg p)
    (h : p.running = pre ++ ⟨aborted, .swapped current next image⟩ :: post)
    (hpending : p'.pendingCount = p.pendingCount + 1) (hsaves : p'.saves = p.saves)
    (hrunning : p'.running =
      pre ++ ⟨aborted, .counted current next image (p.pendingCount + 1)⟩ :: post) :
    Balanced cfg p' := by
  have hlt := saveLimit_lt cfg
  have h1 : (1 : Int32).toInt = 1 := rfl
  have hcount := hb.count
  have hadmitted := hb.admitted
  have hthreads : p.running.length ≤ 3 := hb.threads
  have hlength := List.countP_le_length (p := Handler.counted) (l := p.running)
  have hsum : (p.pendingCount + 1).toInt = p.pendingCount.toInt + 1 :=
    toInt_add_of_range (by omega) (by omega)
  have hguard := postsSave_iff cfg (p.pendingCount + 1)
  have hle := admitted_le_counted cfg p.running
  have hposts := countP_split (Handler.admitted cfg) h
  refine hb.stepped h hrunning ?_ ?_
  · rw [hpending, hsum, hsaves]
    simp only [Handler.counted, Bool.toNat_true, Bool.toNat_false]
    omega
  · rw [hsaves]
    simp only [Handler.admitted, Bool.toNat_false] at hposts ⊢
    cases hg : postsSave cfg (p.pendingCount + 1) with
    | true =>
      have hfits := hguard.mp hg
      rw [Bool.toNat_true]
      omega
    | false =>
      rw [Bool.toNat_false]
      omega

/-- The decision to post: the handler becomes a save. -/
theorem Balanced.posts {p' : Process} (hb : Balanced cfg p)
    (h : p.running = pre ++ ⟨aborted, .counted current next image filesInQueue⟩ :: post)
    (hg : postsSave cfg filesInQueue) (hpending : p'.pendingCount = p.pendingCount)
    (hsaves : p'.saves = p.saves ++ [⟨next, image, .posted⟩])
    (hrunning : p'.running = pre ++ ⟨aborted, .decided current image⟩ :: post) :
    Balanced cfg p' := by
  have hadmitted := hb.admitted
  have hposts := countP_split (Handler.admitted cfg) h
  refine hb.stepped h hrunning ?_ ?_
  · rw [hpending, hsaves, List.length_append]
    simp only [Handler.counted, Bool.toNat_true, Bool.toNat_false, List.length_singleton]
    omega
  · rw [hsaves, List.length_append]
    simp only [Handler.admitted, hg, Bool.toNat_true, Bool.toNat_false,
      List.length_singleton] at hposts ⊢
    omega

/-- The decision not to: the handler takes its count back. -/
theorem Balanced.drops {p' : Process} (hb : Balanced cfg p)
    (h : p.running = pre ++ ⟨aborted, .counted current next image filesInQueue⟩ :: post)
    (hpending : p'.pendingCount = p.pendingCount - 1) (hsaves : p'.saves = p.saves)
    (hrunning : p'.running = pre ++ ⟨aborted, .decided current image⟩ :: post) :
    Balanced cfg p' := by
  have h1 : (1 : Int32).toInt = 1 := rfl
  have hu := p.pendingCount.toInt_lt
  have hcount := hb.count
  have hadmitted := hb.admitted
  have hposts := countP_split (Handler.admitted cfg) h
  have hdiff : (p.pendingCount - 1).toInt = p.pendingCount.toInt - 1 :=
    toInt_sub_of_range (by omega) (by omega)
  refine hb.stepped h hrunning ?_ ?_
  · rw [hpending, hdiff, hsaves]
    simp only [Handler.counted, Bool.toNat_true, Bool.toNat_false]
    omega
  · rw [hsaves]
    simp only [Handler.admitted, Bool.toNat_false] at hposts ⊢
    omega

end Decision

theorem Balanced.handler {aborted : Bool} {stage : Stage} (now : Int) (call : γ)
    (hb : Balanced cfg p) (h : p.running = pre ++ ⟨aborted, stage⟩ :: post) :
    Balanced cfg { (stepHandler cfg grabPicture now call p stage).1 with
      running := pre ++ (((stepHandler cfg grabPicture now call p stage).2.1.map
        (Handler.mk aborted)).toList ++ post) } := by
  cases stage with
  | swapped current next image => exact hb.increments h rfl rfl rfl
  | counted current next image filesInQueue =>
    by_cases hg : postsSave cfg filesInQueue
    · simp only [stepHandler, if_pos hg]
      exact hb.posts h hg rfl rfl rfl
    · simp only [stepHandler, if_neg hg]
      exact hb.drops h rfl rfl rfl
  | _ => exact hb.replaced h rfl (fun y hy => by cases hy <;> rfl) rfl rfl rfl

end Handler

/-- A step of a save: its last one takes the counter down. -/
theorem Balanced.save {pre post : List Save} {v : Save} (opens : Bool) (hb : Balanced cfg p)
    (h : p.saves = pre ++ v :: post) : Balanced cfg { (stepSave cfg opens p v).1 with
      saves := pre ++ ((stepSave cfg opens p v).2.1.toList ++ post) } := by
  have hlen : p.saves.length = pre.length + post.length + 1 := by
    rw [h, List.length_append, List.length_cons, Nat.add_assoc]
  have hgoes (w : Save) : (pre ++ ((some w).toList ++ post)).length = p.saves.length := by
    rw [h]
    simp
  obtain ⟨slot, image, stage⟩ := v
  cases stage with
  | posted => exact hb.of_same rfl rfl (hgoes _)
  | copied buffer => cases opens <;> exact hb.of_same rfl rfl (hgoes _)
  | opened buffer => exact hb.of_same rfl rfl (hgoes _)
  | written =>
    have h1 : (1 : Int32).toInt = 1 := rfl
    have hcount := hb.count
    have hadmitted := hb.admitted
    have hu := p.pendingCount.toInt_lt
    have hdiff : (p.pendingCount - 1).toInt = p.pendingCount.toInt - 1 :=
      toInt_sub_of_range (by omega) (by omega)
    refine ⟨?_, ?_, hb.threads⟩
    · show (p.pendingCount - 1).toInt = ((pre ++ post).length : Int) + _
      rw [hdiff, List.length_append]
      show _ = _ + ((p.running.countP Handler.counted : Nat) : Int)
      omega
    · show ((pre ++ post).length : Int) + (p.running.countP (Handler.admitted cfg) : Nat) ≤ _
      rw [List.length_append]
      omega

/-- A handler that enters is far from its increment, and on a free thread. -/
theorem Balanced.enter {ready : List Bool} (aborted : Bool) (hb : Balanced cfg p)
    (hfree : p.running.length < workers) : Balanced cfg
      { p with ready := ready, running := p.running ++ [⟨aborted, .entered⟩] } := by
  have hnone (f : Handler → Bool) (hf : f ⟨aborted, .entered⟩ = false) :
      (p.running ++ [Handler.mk aborted .entered]).countP f = p.running.countP f := by
    rw [List.countP_append, List.countP_singleton, hf]
    rfl
  refine ⟨?_, ?_, ?_⟩
  · rw [hnone Handler.counted rfl]
    exact hb.count
  · rw [hnone (Handler.admitted cfg) rfl]
    exact hb.admitted
  · rw [List.length_append]
    exact hfree

theorem Balanced.taken {p' : Process} {a : Action γ} {o : Output} (hb : Balanced cfg p)
    (h : Taken cfg grabPicture p a p' o) : Balanced cfg p' := by
  cases h with
  | idle => exact hb
  | setter pre post s now h => cases s <;> exact hb.of_same rfl rfl rfl
  | enter pre post aborted h hfree hquit => exact hb.enter aborted hfree
  | handler pre post aborted stage now call h => exact hb.handler now call h
  | save pre post v opens h => exact hb.save opens h
  | _ => exact hb.of_same rfl rfl rfl

/-! ## Runs -/

theorem balanced_init (cfg : Config) : Balanced cfg Process.init where
  count := rfl
  admitted := by
    show (0 : Int) + 0 ≤ saveLimit cfg
    unfold saveLimit
    omega
  threads := by decide

/-- **`pending_count` is right and the saves are bounded in every state of every run**, whatever
`max_file_count` is. -/
theorem always_accounted (cfg : Config) (grabPicture : γ → Buffer) (as : List (Action γ)) :
    (threads cfg grabPicture).Always (Accounted cfg) Process.init as :=
  Machine.always_mono (fun _ => Balanced.accounted)
    (Machine.always_of_step (fun _ _ _ _ hb he => hb.taken (exec_taken he)) (balanced_init cfg) as)

end Camerasp.Timer
