import Camerasp.Lib.Ring
import Camerasp.Lib.Word
import Camerasp.Timer.Restart

/-!
# Reading an image while captures go on

`handle_timeout` swaps an image into its slot, then counts it, then moves `curImg` past it.
`getImage` reads `currentCount`, then `curImg`, then the slot. Whatever comes between, the slot that
it has settled on keeps its image until the captures have come round the ring: `readImage_published`.
A capture that has swapped and not moved `curImg` yet is one of the ring's images already, and not
yet published, which is what makes the margin one less than a turn.

The ring is the `Lib.Ring` of the images swapped in (`Publishes`).
-/

namespace Camerasp.Timer

open Camerasp.Lib

variable {γ : Type*} {cfg : Config} {grabPicture : γ → Buffer} {p p' : Process} {a : Action γ}
  {o : Output} {os : List Output}

/-! ## The reader -/

/-- The slot for request `k`, once it has passed the clamp. -/
def slotAt (curImg : UInt32) (k : Int32) : Slot :=
  ⟨((curImg - 1 - k.toUInt32) % maxSize).toNat, UInt32.lt_iff_toNat_lt.mp (mod_maxSize_lt _)⟩

/-- `getImage` with its three steps taken in `p₁`, `p₂` and `p₃`: the clamp, the index, the copy. -/
def readImage (k : Int32) (p₁ p₂ p₃ : Process) : Buffer :=
  p₃.imagebuffers (slotAt p₂.curImg (clamp p₁.state k))

/-- On its own it is `getImage`. -/
theorem readImage_alone (k : Int32) (p : Process) : readImage k p p p = getImage p.state k := rfl

theorem slotAt_val {curImg : UInt32} {k : Int32} (h0 : 0 ≤ k.toInt) (hk : k.toInt < curImg.toNat)
    (hlt : curImg.toNat < 100) : ((slotAt curImg k).val : Int) = curImg.toNat - 1 - k.toInt := by
  have h1 : (1 : UInt32).toNat = 1 := rfl
  unfold slotAt
  show (((curImg - 1 - k.toUInt32) % maxSize).toNat : Int) = _
  rw [UInt32.toNat_mod, Int.natCast_mod, toNat_sub_emod, toNat_sub_emod,
    toNat_toUInt32_emod k, h1]
  show _ % 2 ^ 32 % 100 = _
  omega

/-! ## The images -/

def Output.swapped? : Output → Option Buffer
  | .swapped _ image => some image
  | _ => none

def Output.published? : Output → Option Buffer
  | .published image => some image
  | _ => none

/-- The images swapped into the ring, oldest first. -/
def swapped (os : List Output) : List Buffer := os.filterMap Output.swapped?

/-- The images `curImg` has moved past, oldest first. -/
def published (os : List Output) : List Buffer := os.filterMap Output.published?

/-- How a running handler has left the images `ws` swapped in and the images `ps` published. -/
def Halfway (p : Process) (ws ps : List Buffer) : Stage → Prop
  | .grabbing _ next => ws = ps ∧ next = p.next
  | .swapped _ _ image => ws = ps ++ [image]
  | .counted _ _ image _ => ws = ps ++ [image]
  | .decided _ image => ws = ps ++ [image]
  | .bumped _ image => ws = ps ++ [image]
  | _ => ws = ps

/-- The ring holds the images swapped in, `curImg` follows the images published, and there is at
most one image between. -/
structure Publishes (p : Process) (os : List Output) : Prop where
  ring : ∀ j, p.imagebuffers j = ((Ring.fill (swapped os) : Ring Buffer 100).slots j).getD []
  next : p.next = Fin.ofNat 100 (published os).length
  rest : p.running = [] → swapped os = published os
  halfway : ∀ t ∈ p.running, Halfway p (swapped os) (published os) t.stage

theorem publishes_init : Publishes Process.init [] where
  ring _ := rfl
  next := rfl
  rest _ := rfl
  halfway _ ht := absurd ht List.not_mem_nil

/-- A step that neither swaps nor publishes. -/
theorem Publishes.still (hp : Publishes p os) (himages : p'.imagebuffers = p.imagebuffers)
    (hcur : p'.curImg = p.curImg) (hs : o.swapped? = none) (hpub : o.published? = none)
    (hrest : p'.running = [] → swapped os = published os)
    (hgoes : ∀ t ∈ p'.running, Halfway p (swapped os) (published os) t.stage) :
    Publishes p' (os ++ [o]) := by
  have hnext : p'.next = p.next := Fin.ext (congrArg UInt32.toNat hcur)
  have hsw : swapped (os ++ [o]) = swapped os := by
    rw [swapped, List.filterMap_append, List.filterMap_cons_none hs]
    exact List.append_nil _
  have hpb : published (os ++ [o]) = published os := by
    rw [published, List.filterMap_append, List.filterMap_cons_none hpub]
    exact List.append_nil _
  refine ⟨?_, ?_, ?_, ?_⟩
  · rw [himages, hsw]
    exact hp.ring
  · rw [hnext, hpb]
    exact hp.next
  · rw [hsw, hpb]
    exact hrest
  · intro t ht
    have hhalf := hgoes t ht
    rw [hsw, hpb]
    unfold Halfway at hhalf ⊢
    rw [hnext]
    exact hhalf

/-- A step away from the ring and the handlers. -/
theorem Publishes.of_same (hp : Publishes p os) (himages : p'.imagebuffers = p.imagebuffers)
    (hcur : p'.curImg = p.curImg) (hrunning : p'.running = p.running) (hs : o.swapped? = none)
    (hpub : o.published? = none) : Publishes p' (os ++ [o]) :=
  hp.still himages hcur hs hpub (fun h => hp.rest (hrunning ▸ h))
    (fun t ht => hp.halfway t (hrunning ▸ ht))

section Capture

variable {aborted : Bool}

/-- **The swap**: the image is the ring's newest, and one more than are published. -/
theorem Publishes.swap {current : Int} {next : Slot} {image : Buffer} (hp : Publishes p os)
    (heq : swapped os = published os) (hn : next = p.next)
    (himages : p'.imagebuffers = Function.update p.imagebuffers next image)
    (hcur : p'.curImg = p.curImg)
    (hrunning : p'.running = [⟨aborted, .swapped current next image⟩]) :
    Publishes p' (os ++ [.swapped next image]) := by
  have hnext : p'.next = p.next := Fin.ext (congrArg UInt32.toNat hcur)
  have hsw : swapped (os ++ [.swapped next image]) = swapped os ++ [image] := by
    rw [swapped, List.filterMap_append]
    rfl
  have hpb : published (os ++ [.swapped next image]) = published os := by
    rw [published, List.filterMap_append]
    exact List.append_nil _
  refine ⟨?_, ?_, ?_, ?_⟩
  · intro j
    rw [himages, hsw, Ring.fill_snoc]
    show _ = (Function.update (Ring.fill (swapped os)).slots (Ring.fill (swapped os)).head
      (some image) j).getD []
    rw [Ring.fill_head, heq, ← hp.next, ← hn]
    by_cases hj : j = next
    · rw [hj, Function.update_self, Function.update_self]
      rfl
    · rw [Function.update_of_ne hj, Function.update_of_ne hj, hp.ring, heq]
  · rw [hnext, hpb]
    exact hp.next
  · intro hnone
    rw [hrunning] at hnone
    cases hnone
  · intro t ht
    rw [hrunning] at ht
    obtain rfl := List.mem_singleton.mp ht
    rw [hsw, hpb, heq]
    exact rfl

/-- **The move of `curImg`**: what is swapped in is published. -/
theorem Publishes.publish {current : Int} {image : Buffer} (hp : Publishes p os)
    (hws : swapped os = published os ++ [image]) (himages : p'.imagebuffers = p.imagebuffers)
    (hcur : p'.curImg = (p.curImg + 1) % maxSize)
    (hrunning : p'.running = [⟨aborted, .advanced current⟩]) :
    Publishes p' (os ++ [.published image]) := by
  have hsw : swapped (os ++ [.published image]) = swapped os := by
    rw [swapped, List.filterMap_append]
    exact List.append_nil _
  have hpb : published (os ++ [.published image]) = published os ++ [image] := by
    rw [published, List.filterMap_append]
    rfl
  refine ⟨?_, ?_, ?_, ?_⟩
  · rw [himages, hsw]
    exact hp.ring
  · have hlt : p.curImg.toNat < 100 := p.next.isLt
    have hcurrent : p.curImg.toNat = (published os).length % 100 := congrArg Fin.val hp.next
    refine Fin.ext ?_
    show p'.curImg.toNat = _ % 100
    rw [hcur, hpb, List.length_append, UInt32.toNat_mod, UInt32.toNat_add]
    show (p.curImg.toNat + 1) % 2 ^ 32 % 100 = ((published os).length + 1) % 100
    omega
  · intro hnone
    rw [hrunning] at hnone
    cases hnone
  · intro t ht
    rw [hrunning] at ht
    obtain rfl := List.mem_singleton.mp ht
    rw [hsw, hpb]
    exact hws

/-- A step of the one handler that runs. -/
theorem Publishes.handler {stage : Stage} (now : Int) (call : γ) (hp : Publishes p os)
    (hrunning : p.running = [⟨aborted, stage⟩]) :
    Publishes { (stepHandler cfg grabPicture now call p stage).1 with
        running := ((stepHandler cfg grabPicture now call p stage).2.1.map
          (Handler.mk aborted)).toList }
      (os ++ [(stepHandler cfg grabPicture now call p stage).2.2]) := by
  have hhalf : Halfway p (swapped os) (published os) stage :=
    hp.halfway ⟨aborted, stage⟩ (hrunning ▸ List.mem_singleton.mpr rfl)
  -- The handler goes on with what it has left of the images.
  have hone {q : Process} {o : Output} {s : Stage} (himages : q.imagebuffers = p.imagebuffers)
      (hcur : q.curImg = p.curImg) (hs : o.swapped? = none) (hpub : o.published? = none)
      (hq : q.running = [⟨aborted, s⟩]) (hgoes : Halfway p (swapped os) (published os) s) :
      Publishes q (os ++ [o]) := by
    refine hp.still himages hcur hs hpub (fun hnone => ?_) (fun t ht => ?_)
    · rw [hq] at hnone
      cases hnone
    · rw [hq] at ht
      obtain rfl := List.mem_singleton.mp ht
      exact hgoes
  cases stage with
  | entered => exact hone rfl rfl rfl rfl rfl ⟨hhalf, rfl⟩
  | grabbing current next => exact hp.swap hhalf.1 hhalf.2 rfl rfl rfl
  | swapped current next image => exact hone rfl rfl rfl rfl rfl hhalf
  | counted current next image filesInQueue =>
    by_cases hg : postsSave cfg filesInQueue
    · simp only [stepHandler, if_pos hg]
      exact hone rfl rfl rfl rfl rfl hhalf
    · simp only [stepHandler, if_neg hg]
      exact hone rfl rfl rfl rfl rfl hhalf
  | decided current image => exact hone rfl rfl rfl rfl rfl hhalf
  | bumped current image => exact hp.publish hhalf rfl rfl rfl
  | advanced current => exact hone rfl rfl rfl rfl rfl hhalf
  | rescheduled current => exact hone rfl rfl rfl rfl rfl hhalf
  | moved =>
    exact hp.still rfl rfl rfl rfl (fun _ => hhalf) (fun _ ht => absurd ht List.not_mem_nil)

end Capture

/-- **Where one handler runs at a time, the ring holds the images swapped in.** -/
theorem Publishes.taken (hp : Publishes p os) (hsingle : Single p)
    (h : Taken cfg grabPicture p a p' o) : Publishes p' (os ++ [o]) := by
  have hone := hsingle.one
  unfold Process.alive at hone
  cases h with
  | setter pre post s now h =>
    obtain ⟨prev, expiresAt, waiting, ready, hs⟩ := stepSetter_frame cfg now p s
    rw [hs]
    exact hp.of_same rfl rfl rfl rfl rfl
  | enter pre post aborted h hfree hquit =>
    have hnone : p.running = [] := by
      rw [h, List.length_append, List.length_cons] at hone
      exact List.length_eq_zero_iff.mp (by omega)
    refine hp.still rfl rfl rfl rfl (fun h' => ?_) (fun t ht => ?_)
    · exact hp.rest hnone
    · rw [hnone] at ht
      obtain rfl := List.mem_singleton.mp ht
      exact hp.rest hnone
  | handler pre post aborted stage now call h =>
    rw [h, List.length_append, List.length_cons] at hone
    obtain rfl : pre = [] := List.length_eq_zero_iff.mp (by omega)
    obtain rfl : post = [] := List.length_eq_zero_iff.mp (by omega)
    rw [List.nil_append, List.append_nil]
    exact hp.handler now call h
  | save pre post v opens h =>
    obtain ⟨slot, image, stage⟩ := v
    cases stage with
    | copied buffer => cases opens <;> exact hp.of_same rfl rfl rfl rfl rfl
    | _ => exact hp.of_same rfl rfl rfl rfl rfl
  | _ => exact hp.of_same rfl rfl rfl rfl rfl

/-! ## What is read -/

/-- At most one image is swapped in and not published. -/
theorem Publishes.ahead (hp : Publishes p os) : published os <+: swapped os ∧
    (swapped os).length ≤ (published os).length + 1 := by
  have hsame (heq : swapped os = published os) : published os <+: swapped os ∧
      (swapped os).length ≤ (published os).length + 1 := by
    rw [heq]
    exact ⟨List.prefix_rfl, Nat.le_succ _⟩
  have hmore {image : Buffer} (heq : swapped os = published os ++ [image]) :
      published os <+: swapped os ∧ (swapped os).length ≤ (published os).length + 1 := by
    rw [heq, List.length_append]
    exact ⟨List.prefix_append _ _, Nat.le_refl _⟩
  cases hrunning : p.running with
  | nil => exact hsame (hp.rest hrunning)
  | cons t ts =>
    have hhalf := hp.halfway t (hrunning ▸ List.mem_cons_self)
    obtain ⟨aborted, stage⟩ := t
    cases stage with
    | grabbing current next => exact hsame hhalf.1
    | swapped current next image => exact hmore hhalf
    | counted current next image filesInQueue => exact hmore hhalf
    | decided current image => exact hmore hhalf
    | bumped current image => exact hmore hhalf
    | _ => exact hsame hhalf

/-- A slot keeps its image for a turn of the ring. -/
theorem Publishes.slot (hp : Publishes p os) {ps : List Buffer} (hpre : ps <+: swapped os) {i : Nat}
    (hi : i < ps.length) (hturn : (swapped os).length ≤ i + 100) :
    p.imagebuffers (Fin.ofNat 100 i) = ps[i] := by
  have hlt : i < (swapped os).length := Nat.lt_of_lt_of_le hi hpre.length_le
  rw [hp.ring, Ring.fill_slots _ i hlt hturn, Option.getD_some, hpre.getElem hi]

/-- **A read returns the image it is asked for**, complete, if fewer than `99 - k` captures swap
between its look at `curImg` and its copy. `k` is the request after the clamp, and images count
back from the newest published one when `curImg` was read. -/
theorem readImage_published {as₁ as₂ as₃ : List (Action γ)} {p₁ p₂ p₃ : Process} {k : Int32}
    (h₁ : (threads cfg grabPicture).run Process.init as₁ = .ok p₁)
    (h₂ : (threads cfg grabPicture).run p₁ as₂ = .ok p₂)
    (h₃ : (threads cfg grabPicture).run p₂ as₃ = .ok p₃)
    (honce : (as₁ ++ as₂ ++ as₃).countP Action.isSetTimer ≤ 1)
    (h0 : 0 ≤ (clamp p₁.state k).toInt) (hk : (clamp p₁.state k).toInt < p₂.curImg.toNat)
    (hm : (swapped ((threads cfg grabPicture).log p₂ as₃)).length <
      99 - (clamp p₁.state k).toInt) :
    (published ((threads cfg grabPicture).log Process.init (as₁ ++ as₂))).reverse[
        (clamp p₁.state k).toInt.toNat]? = some (readImage k p₁ p₂ p₃) := by
  have hrun := (Machine.run_append h₁ as₂).trans h₂
  obtain ⟨hbefore, hafter⟩ := Machine.steps_append_inv (steps_alone_of_once honce) hrun
  -- Single handlers and the ring, up to the look at `curImg` and up to the copy.
  have hstep : ∀ p os a p' o, Single p ∧ Publishes p os → Alone p a →
      (threads cfg grabPicture).exec p a = .ok (p', o) →
        Single p' ∧ Publishes p' (os ++ [o]) := by
    rintro p os a p' o ⟨hs, hp⟩ ha he
    exact ⟨(single_step hs a).mp ha p' o he, hp.taken hs (exec_taken he)⟩
  have h₂' := Machine.steps_log_invariant hstep ⟨single_init, publishes_init⟩ hbefore hrun
  have h₃' := Machine.steps_log_invariant hstep h₂' hafter h₃
  rw [List.nil_append] at h₂' h₃'
  generalize (threads cfg grabPicture).log Process.init (as₁ ++ as₂) = os at h₂' h₃' ⊢
  generalize (threads cfg grabPicture).log p₂ as₃ = os' at hm h₃'
  obtain ⟨hpre, hahead⟩ := h₂'.2.ahead
  have hws : swapped (os ++ os') = swapped os ++ swapped os' := List.filterMap_append
  have hcur : p₂.curImg.toNat = (published os).length % 100 := congrArg Fin.val h₂'.2.next
  have hlt : p₂.curImg.toNat < 100 := p₂.next.isLt
  have hslot := slotAt_val h0 hk hlt
  unfold readImage
  generalize clamp p₁.state k = k' at *
  obtain ⟨m, hkm⟩ := Int.eq_ofNat_of_zero_le h0
  rw [hkm, Int.toNat_natCast]
  have hi : (published os).length - 1 - m < (published os).length := by omega
  have hval : slotAt p₂.curImg k' = Fin.ofNat 100 ((published os).length - 1 - m) := by
    refine Fin.ext ?_
    show (slotAt p₂.curImg k').val = ((published os).length - 1 - m) % 100
    omega
  rw [hval, h₃'.2.slot (hws ▸ hpre.trans (List.prefix_append _ _)) hi ?_,
    List.getElem?_reverse (by omega), List.getElem?_eq_getElem hi]
  rw [hws, List.length_append]
  omega

/-- The first capture. -/
def firstCapture : List (Action Buffer) :=
  [.setTimer, .setter 0 0, .setter 0 0, .setter 0 0, .expire, .invoke 0] ++
    List.replicate 9 (.handler 0 10 [7])

/-- The second, up to its swap. -/
def secondSwap : List (Action Buffer) :=
  [.expire, .invoke 0, .handler 0 20 [8], .handler 0 20 [8]]

theorem readImage_published_first : ∃ p₁ p₂,
    (threads ⟨10, 100, "img"⟩ id).run Process.init firstCapture = .ok p₁ ∧
      (threads ⟨10, 100, "img"⟩ id).run p₁ secondSwap = .ok p₂ ∧
      (published ((threads ⟨10, 100, "img"⟩ id).log Process.init (firstCapture ++ []))).reverse[
        (clamp p₁.state 0).toInt.toNat]? = some (readImage 0 p₁ p₁ p₂) :=
  ⟨_, _, rfl, rfl, readImage_published rfl rfl
    (show (threads ⟨10, 100, "img"⟩ id).run _ secondSwap = .ok _ from rfl)
    (by decide) (by decide) (by decide) (by decide)⟩

end Camerasp.Timer
