import Camerasp.Timer.Threads

/-!
# What the saves write

A save that `handle_timeout` posts carries a slot number. It copies the slot when it gets to run,
and writes the copy when it has opened the file of the slot. So its image is whatever the slot
holds by then, and two saves of one slot write one file in any order.

`Saved` is what the saves are for: each writes the image it was posted with, once and in turn, and
when none is pending each file holds the image posted last. `saved_of_timely`: so it is in every
run whose captures find no save left to copy the slot they swap into, and whose saves find their
files, one save of a slot after the other (`Timely`).

The invariant has two parts: the slots hold what is to be saved (`Backed`), and the files hold what
has been (`Filed`).
-/

namespace Camerasp.Timer

open Camerasp.Lib

variable {γ : Type*} {cfg : Config} {grabPicture : γ → Buffer} {p p' : Process} {a : Action γ}
  {o : Output} {os : List Output}

/-! ## The property -/

def Output.posted? (slot : Slot) : Output → Option Buffer
  | .posted s image => if s = slot then some image else none
  | _ => none

def Output.wrote? (slot : Slot) : Output → Option Buffer
  | .wrote s _ buffer => if s = slot then some buffer else none
  | _ => none

/-- The images with which saves of the slot were posted, oldest first. -/
def postings (slot : Slot) (os : List Output) : List Buffer := os.filterMap (Output.posted? slot)

/-- What saves of the slot have written, oldest first. -/
def writings (slot : Slot) (os : List Output) : List Buffer := os.filterMap (Output.wrote? slot)

/-- The image that a save of the slot has still to write. -/
def Save.owed (slot : Slot) (v : Save) : Option Buffer :=
  match v.stage with
  | .written => none
  | _ => if v.slot = slot then some v.image else none

/-- The images that saves of the slot have still to write, in the order they were posted. -/
def Process.owed (p : Process) (slot : Slot) : List Buffer := p.saves.filterMap (Save.owed slot)

/-- Each save writes the image it was posted with, each does so once and in turn, and when no save
is pending the file of a slot holds the image posted last. -/
structure Saved (cfg : Config) (p : Process) (os : List Output) : Prop where
  exact : ∀ slot image buffer, Output.wrote slot image buffer ∈ os → buffer = image
  once : ∀ slot, postings slot os = writings slot os ++ p.owed slot
  file : p.saves = [] → ∀ slot, p.files (fileName cfg slot) = (postings slot os).getLast?

/-! ## The condition -/

/-- The slot that a handler has swapped an image into without having decided on its save, and the
image. -/
def Handler.undecided (t : Handler) : Option (Slot × Buffer) :=
  match t.stage with
  | .swapped _ next image => some (next, image)
  | .counted _ next image _ => some (next, image)
  | _ => none

/-- The slot that a handler is about to swap into. -/
def Handler.grabs (t : Handler) : Option Slot :=
  match t.stage with
  | .grabbing _ next => some next
  | _ => none

/-- The save is about to open its file. -/
def Save.opening (v : Save) : Bool :=
  match v.stage with
  | .copied _ => true
  | _ => false

/-- No save has still to copy the slot, and no handler is about to save it. -/
def Process.Free (p : Process) (slot : Slot) : Prop :=
  (∀ v ∈ p.saves, v.task ≠ some slot) ∧ ∀ t ∈ p.running, ∀ x ∈ t.undecided, x.1 ≠ slot

instance (p : Process) (slot : Slot) : Decidable (p.Free slot) :=
  inferInstanceAs (Decidable (_ ∧ _))

/-- A capture finds the slot that it swaps into free; a save finds its file, and the earlier saves
of the slot have written. -/
def Timely (p : Process) : Action γ → Prop
  | .handler i _ _ => ∀ t ∈ p.running[i]?, ∀ next ∈ t.grabs, p.Free next
  | .save i opens => ∀ v ∈ p.saves[i]?, v.opening →
    opens = true ∧ ∀ e ∈ p.saves.take i, e.owed v.slot = none
  | _ => True

instance (p : Process) : (a : Action γ) → Decidable (Timely p a)
  | .handler i _ _ =>
    inferInstanceAs (Decidable (∀ t ∈ p.running[i]?, ∀ next ∈ t.grabs, p.Free next))
  | .save i opens => inferInstanceAs (Decidable (∀ v ∈ p.saves[i]?, v.opening →
      opens = true ∧ ∀ e ∈ p.saves.take i, e.owed v.slot = none))
  | .setTimer | .setter _ _ | .stopCapture | .expire | .invoke _ => isTrue trivial

/-! ## The slots -/

/-- The image of a save is in its slot, or copied. -/
def Save.Backed (imagebuffers : Slot → Buffer) (v : Save) : Prop :=
  match v.stage with
  | .posted => imagebuffers v.slot = v.image
  | .copied buffer => buffer = v.image
  | .opened buffer => buffer = v.image
  | .written => True

/-- The images to be saved are in their slots, or copied. -/
structure Backed (p : Process) : Prop where
  running : ∀ t ∈ p.running, ∀ x, t.undecided = some x → p.imagebuffers x.1 = x.2
  saves : ∀ v ∈ p.saves, v.Backed p.imagebuffers

theorem backed_init : Backed Process.init where
  running _ ht := absurd ht List.not_mem_nil
  saves _ hv := absurd hv List.not_mem_nil

/-- A step that touches no slot. -/
theorem Backed.of_same (hb : Backed p) (himages : p'.imagebuffers = p.imagebuffers)
    (hrunning : ∀ t ∈ p'.running, ∀ x, t.undecided = some x →
      ∃ t' ∈ p.running, t'.undecided = some x)
    (hsaves : ∀ v ∈ p'.saves, v ∈ p.saves ∨ v.Backed p.imagebuffers) : Backed p' where
  running t ht x hx := by
    obtain ⟨t', ht', hx'⟩ := hrunning t ht x hx
    rw [himages]
    exact hb.running t' ht' x hx'
  saves v hv := by
    rw [himages]
    exact (hsaves v hv).elim (hb.saves v) id

/-- A save that has still to copy its slot is not touched by a swap elsewhere. -/
theorem Save.Backed.update {imagebuffers : Slot → Buffer} {v : Save} {next : Slot} {buffer : Buffer}
    (hv : v.Backed imagebuffers) (hn : v.task ≠ some next) :
    v.Backed (Function.update imagebuffers next buffer) := by
  obtain ⟨slot, image, stage⟩ := v
  cases stage with
  | posted =>
    have hne : slot ≠ next := fun h => hn (congrArg some h)
    show Function.update imagebuffers next buffer slot = image
    rw [Function.update_of_ne hne]
    exact hv
  | _ => exact hv

section Capture

variable {pre post : List Handler} {aborted : Bool} {stage : Stage} (now : Int) (call : γ)

/-- A step of a handler. -/
theorem Backed.handler (hb : Backed p) (h : p.running = pre ++ ⟨aborted, stage⟩ :: post)
    (hswap : ∀ current next, stage = .grabbing current next → p.Free next) :
    Backed { (stepHandler cfg grabPicture now call p stage).1 with
      running := pre ++ (((stepHandler cfg grabPicture now call p stage).2.1.map
        (Handler.mk aborted)).toList ++ post) } := by
  have hmem : (⟨aborted, stage⟩ : Handler) ∈ p.running :=
    h ▸ List.mem_append_right _ List.mem_cons_self
  -- A handler that goes on keeps the image it had.
  have hgoes {s : Stage} (hs : Handler.undecided ⟨aborted, s⟩ = Handler.undecided ⟨aborted, stage⟩ ∨
      Handler.undecided ⟨aborted, s⟩ = none) :
      ∀ t ∈ pre ++ ((some (Handler.mk aborted s)).toList ++ post), ∀ x, t.undecided = some x →
        ∃ t' ∈ p.running, t'.undecided = some x := by
    intro t ht x hx
    rcases mem_replaced h ht with ht | ht
    · exact ⟨t, ht, hx⟩
    · obtain rfl := Option.some.inj ht
      rcases hs with hs | hs
      · exact ⟨_, hmem, hs ▸ hx⟩
      · rw [hs] at hx
        cases hx
  cases stage with
  | grabbing current next =>
    obtain ⟨htasks, hothers⟩ := hswap current next rfl
    refine ⟨fun t ht x hx => ?_, fun v hv => (hb.saves v hv).update (htasks v hv)⟩
    show Function.update p.imagebuffers next (grabPicture call) x.1 = x.2
    rcases mem_replaced h ht with ht | ht
    · rw [Function.update_of_ne (hothers t ht x hx)]
      exact hb.running t ht x hx
    · obtain rfl := Option.some.inj ht
      obtain rfl := Option.some.inj hx
      exact Function.update_self _ _ _
  | counted current next image filesInQueue =>
    have himage : p.imagebuffers next = image := hb.running _ hmem (next, image) rfl
    by_cases hg : postsSave cfg filesInQueue
    · simp only [stepHandler, if_pos hg]
      refine hb.of_same rfl (hgoes (.inr rfl)) (fun v hv => ?_)
      rcases List.mem_append.mp hv with hv | hv
      · exact .inl hv
      · obtain rfl := List.mem_singleton.mp hv
        exact .inr himage
    · simp only [stepHandler, if_neg hg]
      exact hb.of_same rfl (hgoes (.inr rfl)) (fun _ => .inl)
  | moved =>
    refine hb.of_same rfl (fun t ht x hx => ?_) (fun _ => .inl)
    rcases mem_replaced (r := none) h ht with ht | ht
    · exact ⟨t, ht, hx⟩
    · cases ht
  | swapped current next image => exact hb.of_same rfl (hgoes (.inl rfl)) (fun _ => .inl)
  | _ => exact hb.of_same rfl (hgoes (.inr rfl)) (fun _ => .inl)

end Capture

/-- A step of a save. -/
theorem Backed.save {pre post : List Save} {v : Save} (opens : Bool) (hb : Backed p)
    (h : p.saves = pre ++ v :: post) :
    Backed { (stepSave cfg opens p v).1 with
      saves := pre ++ ((stepSave cfg opens p v).2.1.toList ++ post) } := by
  have hv : v.Backed p.imagebuffers := hb.saves v (h ▸ List.mem_append_right _ List.mem_cons_self)
  obtain ⟨files, n, hs⟩ := stepSave_frame cfg opens p v
  rw [hs]
  refine hb.of_same rfl (fun t ht x hx => ⟨t, ht, hx⟩) (fun w hw => ?_)
  refine (mem_replaced h hw).imp id (fun hw => ?_)
  obtain ⟨slot, image, stage⟩ := v
  cases stage with
  | posted =>
    obtain rfl := Option.some.inj hw
    exact hv
  | copied buffer =>
    cases opens with
    | true =>
      obtain rfl := Option.some.inj hw
      exact hv
    | false =>
      obtain rfl := Option.some.inj hw
      exact trivial
  | opened buffer =>
    obtain rfl := Option.some.inj hw
    exact trivial
  | written => cases hw

/-- **A timely step keeps what is to be saved.** -/
theorem Backed.taken (hb : Backed p) (ht : Timely p a) (h : Taken cfg grabPicture p a p' o) :
    Backed p' := by
  cases h with
  | setter pre post s now h =>
    obtain ⟨prev, expiresAt, waiting, ready, hs⟩ := stepSetter_frame cfg now p s
    rw [hs]
    exact ⟨hb.running, hb.saves⟩
  | enter pre post aborted h hfree hquit =>
    refine hb.of_same rfl (fun t ht x hx => ?_) (fun _ => .inl)
    rcases List.mem_append.mp ht with ht | ht
    · exact ⟨t, ht, hx⟩
    · obtain rfl := List.mem_singleton.mp ht
      cases hx
  | handler pre post aborted stage now call h =>
    refine hb.handler now call h (fun current next hs => ?_)
    exact ht _ (getElem?_split h) next (hs ▸ rfl)
  | save pre post v opens h => exact hb.save opens h
  | _ => exact ⟨hb.running, hb.saves⟩

/-! ## The files -/

theorem postings_append (slot : Slot) (os : List Output) (o : Output) :
    postings slot (os ++ [o]) = postings slot os ++ (o.posted? slot).toList := by
  rw [postings, List.filterMap_append, List.filterMap_cons]
  cases o.posted? slot <;> rfl

theorem writings_append (slot : Slot) (os : List Output) (o : Output) :
    writings slot (os ++ [o]) = writings slot os ++ (o.wrote? slot).toList := by
  rw [writings, List.filterMap_append, List.filterMap_cons]
  cases o.wrote? slot <;> rfl

/-- `sprintf` gives each slot a name of its own. -/
theorem intstr_injective : Function.Injective intstr := by
  have hread : ∀ slot, (intstr slot).toList.foldl (fun n c => 10 * n + (c.toNat - 48)) 0 =
      slot.val := by decide
  intro s t h
  refine Fin.ext ?_
  rw [← hread s, ← hread t, h]

theorem fileName_injective (cfg : Config) : Function.Injective (fileName cfg) := by
  intro s t h
  have h' := (String.append_left_inj _).mp h
  exact intstr_injective ((String.append_right_inj _).mp h')

/-- The save has opened its file and not written it. -/
def Save.writing (v : Save) : Prop := ∃ buffer, v.stage = .opened buffer

/-- The save has opened its file. -/
def Save.begun (v : Save) : Prop := v.writing ∨ v.stage = .written

/-- A save that has opened its file finds the earlier ones of its slot written. -/
def Save.Before (e v : Save) : Prop := e.slot = v.slot → v.begun → e.stage = .written

/-- The files hold what has been written, and what is to be written comes in turn. -/
structure Filed (cfg : Config) (p : Process) (os : List Output) : Prop where
  order : p.saves.Pairwise Save.Before
  exact : ∀ slot image buffer, Output.wrote slot image buffer ∈ os → buffer = image
  once : ∀ slot, postings slot os = writings slot os ++ p.owed slot
  opened : ∀ v ∈ p.saves, v.writing → p.files (fileName cfg v.slot) = some []
  settled : ∀ slot, (∀ v ∈ p.saves, v.slot = slot → ¬ v.writing) →
    p.files (fileName cfg slot) = (writings slot os).getLast?

theorem filed_init : Filed cfg Process.init [] where
  order := .nil
  exact _ _ _ h := absurd h List.not_mem_nil
  once _ := rfl
  opened _ hv := absurd hv List.not_mem_nil
  settled _ _ := rfl

theorem Filed.saved (hf : Filed cfg p os) : Saved cfg p os where
  exact := hf.exact
  once := hf.once
  file h slot := by
    have howed : p.owed slot = [] := by
      rw [Process.owed, h]
      rfl
    rw [hf.once, howed, List.append_nil]
    refine hf.settled slot (fun v hv => ?_)
    rw [h] at hv
    exact absurd hv List.not_mem_nil

/-- An output that is no write leaves the writes as they are. -/
theorem exact_append (h : ∀ slot image buffer, Output.wrote slot image buffer ∈ os → buffer = image)
    (ho : ∀ slot, o.wrote? slot = none) (slot : Slot) (image buffer : Buffer)
    (hw : Output.wrote slot image buffer ∈ os ++ [o]) : buffer = image := by
  rcases List.mem_append.mp hw with hw | hw
  · exact h slot image buffer hw
  · have hnone := ho slot
    rw [← List.mem_singleton.mp hw, Output.wrote?, if_pos rfl] at hnone
    cases hnone

/-- A step that touches no file and posts nothing. -/
theorem Filed.still (hf : Filed cfg p os) (hfiles : p'.files = p.files)
    (horder : p'.saves.Pairwise Save.Before) (howed : ∀ slot, p'.owed slot = p.owed slot)
    (hwriting : ∀ v, v.writing → (v ∈ p'.saves ↔ v ∈ p.saves))
    (hposted : ∀ slot, o.posted? slot = none) (hwrote : ∀ slot, o.wrote? slot = none) :
    Filed cfg p' (os ++ [o]) where
  order := horder
  exact := exact_append hf.exact hwrote
  once slot := by
    rw [postings_append, writings_append, hposted, hwrote, howed, Option.toList_none,
      List.append_nil, List.append_nil]
    exact hf.once slot
  opened v hv hw := by
    rw [hfiles]
    exact hf.opened v ((hwriting v hw).mp hv) hw
  settled slot hnone := by
    rw [hfiles, writings_append, hwrote, Option.toList_none, List.append_nil]
    exact hf.settled slot fun v hv hs hw => hnone v ((hwriting v hw).mpr hv) hs hw

/-- A step away from the saves. -/
theorem Filed.of_same (hf : Filed cfg p os) (hfiles : p'.files = p.files)
    (hsaves : p'.saves = p.saves) (hposted : ∀ slot, o.posted? slot = none)
    (hwrote : ∀ slot, o.wrote? slot = none) : Filed cfg p' (os ++ [o]) :=
  hf.still hfiles (hsaves ▸ hf.order) (fun _ => by rw [Process.owed, hsaves]; rfl)
    (fun _ _ => by rw [hsaves]) hposted hwrote

/-- A post: the save is the last in turn. -/
theorem Filed.post {slot : Slot} {image : Buffer} (hf : Filed cfg p os)
    (hfiles : p'.files = p.files) (hsaves : p'.saves = p.saves ++ [⟨slot, image, .posted⟩]) :
    Filed cfg p' (os ++ [.posted slot image]) where
  order := by
    rw [hsaves]
    refine List.pairwise_append.mpr ⟨hf.order, List.pairwise_singleton _ _, ?_⟩
    intro e _ v hv _ hbegun
    rw [List.mem_singleton.mp hv] at hbegun
    rcases hbegun with ⟨_, h⟩ | h <;> cases h
  exact := exact_append hf.exact fun _ => rfl
  once s := by
    have howed : p'.owed s = p.owed s ++ (Save.owed s ⟨slot, image, .posted⟩).toList := by
      rw [Process.owed, hsaves, List.filterMap_append, List.filterMap_cons]
      cases Save.owed s ⟨slot, image, .posted⟩ <;> rfl
    rw [postings_append, writings_append, howed, hf.once s]
    simp only [List.append_assoc]
    rfl
  opened v hv hw := by
    rw [hfiles]
    rw [hsaves] at hv
    rcases List.mem_append.mp hv with hv | hv
    · exact hf.opened v hv hw
    · rw [List.mem_singleton.mp hv] at hw
      obtain ⟨_, h⟩ := hw
      cases h
  settled s hnone := by
    rw [hfiles, writings_append]
    show _ = (writings s os ++ []).getLast?
    rw [List.append_nil]
    refine hf.settled s fun v hv => hnone v ?_
    rw [hsaves]
    exact List.mem_append_left _ hv

section Save

variable {pre post : List Save} {slot : Slot} {image buffer : Buffer}

/-- A save goes on in its turn: it opens its file after the earlier ones have written. -/
theorem before_replaced {v v' : Save} (h : p.saves = pre ++ v :: post)
    (ho : p.saves.Pairwise Save.Before) (hslot : v'.slot = v.slot) (hv : v.stage ≠ .written)
    (hturn : v'.begun → v.begun ∨ ∀ e ∈ pre, e.slot = v.slot → e.stage = .written) :
    (pre ++ v' :: post).Pairwise Save.Before := by
  refine pairwise_replaced h ho ?_ ?_
  · intro e he hbefore hs hb
    rw [hslot] at hs
    rcases hturn hb with hb | hpre
    · exact hbefore hs hb
    · exact hpre e he hs
  · intro e _ hbefore hs hb
    rw [hslot] at hs
    exact absurd (hbefore hs hb) hv

theorem ne_of_writing {v w : Save} (hv : v.writing) (hw : ∀ buffer, w.stage ≠ .opened buffer) :
    v ≠ w := by
  rintro rfl
  obtain ⟨buffer, hs⟩ := hv
  exact hw buffer hs

/-- A copy: nothing is written. -/
theorem Filed.copies (hf : Filed cfg p os) (h : p.saves = pre ++ ⟨slot, image, .posted⟩ :: post)
    (hfiles : p'.files = p.files) (hsaves : p'.saves = pre ++ ⟨slot, image, .copied buffer⟩ :: post) :
    Filed cfg p' (os ++ [.quiet]) := by
  have hbegun : ¬ (⟨slot, image, .copied buffer⟩ : Save).begun := by
    rintro (⟨_, hs⟩ | hs) <;> cases hs
  refine hf.still hfiles ?_ ?_ ?_ (fun _ => rfl) (fun _ => rfl)
  · rw [hsaves]
    exact before_replaced h hf.order rfl (fun hs => by cases hs) (fun hb => absurd hb hbegun)
  · intro s
    rw [Process.owed, hsaves, filterMap_split _ rfl, Process.owed, filterMap_split _ h]
    rfl
  · intro v hv
    rw [hsaves]
    refine mem_replaced_iff (r := some _) h ?_ ?_
    · exact ne_of_writing hv (fun _ hs => by cases hs)
    · exact (ne_of_writing hv (fun _ hs => by cases hs)).symm ∘ Option.some.inj

/-- The end: nothing is written any more. -/
theorem Filed.ends (hf : Filed cfg p os) (h : p.saves = pre ++ ⟨slot, image, .written⟩ :: post)
    (hfiles : p'.files = p.files) (hsaves : p'.saves = pre ++ post) :
    Filed cfg p' (os ++ [.quiet]) := by
  refine hf.still hfiles ?_ ?_ ?_ (fun _ => rfl) (fun _ => rfl)
  · rw [hsaves]
    exact pairwise_removed h hf.order
  · intro s
    rw [Process.owed, hsaves, List.filterMap_append, Process.owed, filterMap_split _ h]
    rfl
  · intro v hv
    rw [hsaves]
    exact mem_replaced_iff (r := none) h (ne_of_writing hv (fun _ hs => by cases hs)) nofun

theorem written_of_owed {e : Save} (h : e.owed slot = none) (hs : e.slot = slot) :
    e.stage = .written := by
  obtain ⟨s, i, stage⟩ := e
  cases stage with
  | written => rfl
  | _ =>
    rw [Save.owed, if_pos hs] at h
    cases h

section Elsewhere

variable {v v' : Save} {contents : Option Buffer}

/-- A save that touches its file touches no other slot's. -/
theorem files_elsewhere (hfiles : p'.files = Function.update p.files (fileName cfg slot) contents)
    {s : Slot} (hs : s ≠ slot) : p'.files (fileName cfg s) = p.files (fileName cfg s) := by
  rw [hfiles, Function.update_of_ne ((fileName_injective cfg).ne hs)]

theorem Filed.opened_elsewhere (hf : Filed cfg p os) (h : p.saves = pre ++ v :: post)
    (hsaves : p'.saves = pre ++ v' :: post) (hv' : v'.slot = slot)
    (hfiles : p'.files = Function.update p.files (fileName cfg slot) contents) {w : Save}
    (hmem : w ∈ p'.saves) (hw : w.writing) (hs : w.slot ≠ slot) :
    p'.files (fileName cfg w.slot) = some [] := by
  rw [files_elsewhere hfiles hs]
  rw [hsaves] at hmem
  rcases mem_replaced (r := some v') h hmem with hmem | heq
  · exact hf.opened w hmem hw
  · obtain rfl := Option.some.inj heq
    exact absurd hv' hs

theorem Filed.settled_elsewhere (hf : Filed cfg p os) (h : p.saves = pre ++ v :: post)
    (hv : v.slot = slot) (hsaves : p'.saves = pre ++ v' :: post) (hv' : v'.slot = slot)
    (hfiles : p'.files = Function.update p.files (fileName cfg slot) contents) {s : Slot}
    (hs : s ≠ slot) (hnone : ∀ w ∈ p'.saves, w.slot = s → ¬ w.writing) :
    p'.files (fileName cfg s) = (writings s os).getLast? := by
  rw [files_elsewhere hfiles hs]
  refine hf.settled s ?_
  intro w hmem hws hw
  refine hnone w ?_ hws hw
  rw [hsaves]
  refine (mem_replaced_iff (r := some v') h ?_ ?_).mpr hmem
  · rintro rfl
    exact hs (hws.symm.trans hv)
  · intro heq
    obtain rfl := Option.some.inj heq
    exact hs (hws.symm.trans hv')

end Elsewhere

/-- The file is opened, in turn: it is empty until the save has written. -/
theorem Filed.opens (hf : Filed cfg p os)
    (h : p.saves = pre ++ ⟨slot, image, .copied buffer⟩ :: post)
    (hturn : ∀ e ∈ pre, e.slot = slot → e.stage = .written)
    (hfiles : p'.files = Function.update p.files (fileName cfg slot) (some []))
    (hsaves : p'.saves = pre ++ ⟨slot, image, .opened buffer⟩ :: post) :
    Filed cfg p' (os ++ [.quiet]) := by
  refine ⟨?_, exact_append hf.exact fun _ => rfl, ?_, ?_, ?_⟩
  · rw [hsaves]
    exact before_replaced h hf.order rfl (fun hs => by cases hs) (fun _ => .inr hturn)
  · intro s
    have howed : p'.owed s = p.owed s := by
      rw [Process.owed, hsaves, filterMap_split _ rfl, Process.owed, filterMap_split _ h]
      rfl
    rw [postings_append, writings_append, howed, hf.once s]
    simp [Output.posted?, Output.wrote?]
  · intro v hv hw
    by_cases hs : v.slot = slot
    · rw [hs, hfiles, Function.update_self]
    · exact hf.opened_elsewhere h hsaves rfl hfiles hv hw hs
  · intro s hnone
    have hs : s ≠ slot := by
      intro hs
      exact hnone ⟨slot, image, .opened buffer⟩ (by simp [hsaves]) hs.symm ⟨buffer, rfl⟩
    rw [writings_append]
    show _ = (writings s os ++ []).getLast?
    rw [List.append_nil]
    exact hf.settled_elsewhere h rfl hsaves rfl hfiles hs hnone

/-- No other save of the slot has its file open. -/
theorem Filed.alone (hf : Filed cfg p os) (h : p.saves = pre ++ ⟨slot, image, .opened buffer⟩ :: post)
    {v : Save} (hv : v ∈ pre ∨ v ∈ post) (hs : v.slot = slot) : ¬ v.writing := by
  intro hw
  obtain ⟨hpre, hpost⟩ := pairwise_split h hf.order
  rcases hv with hv | hv
  · obtain ⟨_, hw⟩ := hw
    have hwritten := hpre v hv hs (.inl ⟨buffer, rfl⟩)
    rw [hw] at hwritten
    cases hwritten
  · cases hpost v hv hs.symm (.inl hw)

/-- Before it in the pool there is none of its slot left to write. -/
theorem Filed.first (hf : Filed cfg p os)
    (h : p.saves = pre ++ ⟨slot, image, .opened buffer⟩ :: post) :
    pre.filterMap (Save.owed slot) = [] := by
  refine List.filterMap_eq_nil_iff.mpr ?_
  intro e he
  by_cases hs : e.slot = slot
  · rw [Save.owed, (pairwise_split h hf.order).1 e he hs (.inl ⟨buffer, rfl⟩)]
  · obtain ⟨s, i, stage⟩ := e
    cases stage <;> simp [Save.owed, show s ≠ slot from hs]

/-- **The write**: the file holds the image, which was next in turn. -/
theorem Filed.writes (hf : Filed cfg p os)
    (h : p.saves = pre ++ ⟨slot, image, .opened image⟩ :: post)
    (hfiles : p'.files = Function.update p.files (fileName cfg slot)
      (some (image ++ ((p.files (fileName cfg slot)).getD []).drop image.length)))
    (hsaves : p'.saves = pre ++ ⟨slot, image, .written⟩ :: post) :
    Filed cfg p' (os ++ [.wrote slot image image]) := by
  have hmem : (⟨slot, image, .opened image⟩ : Save) ∈ p.saves :=
    h ▸ List.mem_append_right _ List.mem_cons_self
  have hempty := hf.opened _ hmem ⟨image, rfl⟩
  rw [hempty, Option.getD_some, List.drop_nil, List.append_nil] at hfiles
  refine ⟨?_, ?_, ?_, ?_, ?_⟩
  · rw [hsaves]
    exact before_replaced h hf.order rfl (fun hs => by cases hs) fun _ => .inl (.inl ⟨image, rfl⟩)
  · intro s i b hw
    rcases List.mem_append.mp hw with hw | hw
    · exact hf.exact s i b hw
    · cases List.mem_singleton.mp hw
      rfl
  · intro s
    have howed := hf.once s
    rw [Process.owed, filterMap_split _ h] at howed
    rw [postings_append, writings_append, howed, Process.owed, hsaves, filterMap_split _ rfl]
    by_cases hs : slot = s
    · rw [← hs, hf.first h]
      simp [Output.posted?, Output.wrote?, Save.owed]
    · simp [Output.posted?, Output.wrote?, Save.owed, hs]
  · intro v hv hw
    by_cases hs : v.slot = slot
    · have hne : v ≠ ⟨slot, image, .written⟩ := ne_of_writing hw (fun _ hs => by cases hs)
      rw [hsaves] at hv
      exact absurd hw (hf.alone h (by simpa [hne] using hv) hs)
    · exact hf.opened_elsewhere h hsaves rfl hfiles hv hw hs
  · intro s hnone
    rw [writings_append]
    by_cases hs : slot = s
    · rw [← hs, hfiles, Function.update_self]
      simp [Output.wrote?]
    · show _ = (writings s os ++ (if slot = s then some image else none).toList).getLast?
      rw [if_neg hs, Option.toList_none, List.append_nil]
      exact hf.settled_elsewhere h rfl hsaves rfl hfiles (Ne.symm hs) hnone

end Save

/-- **A timely step keeps the files** as long as the slots hold what is to be saved. -/
theorem Filed.taken (hf : Filed cfg p os) (hb : Backed p) (ht : Timely p a)
    (h : Taken cfg grabPicture p a p' o) : Filed cfg p' (os ++ [o]) := by
  cases h with
  | setter pre post s now h =>
    obtain ⟨prev, expiresAt, waiting, ready, hs⟩ := stepSetter_frame cfg now p s
    rw [hs]
    exact hf.of_same rfl rfl (fun _ => rfl) (fun _ => rfl)
  | handler pre post aborted stage now call h =>
    cases stage with
    | counted current next image filesInQueue =>
      by_cases hg : postsSave cfg filesInQueue
      · simp only [stepHandler, if_pos hg]
        exact hf.post rfl rfl
      · simp only [stepHandler, if_neg hg]
        exact hf.of_same rfl rfl (fun _ => rfl) (fun _ => rfl)
    | _ => exact hf.of_same rfl rfl (fun _ => rfl) (fun _ => rfl)
  | save pre post v opens h =>
    have hv : v.Backed p.imagebuffers := hb.saves v (h ▸ List.mem_append_right _ List.mem_cons_self)
    obtain ⟨slot, image, stage⟩ := v
    cases stage with
    | posted => exact hf.copies h rfl rfl
    | copied buffer =>
      obtain ⟨rfl, hpre⟩ := ht _ (getElem?_split h) rfl
      rw [h, List.take_left] at hpre
      exact hf.opens h (fun e he => written_of_owed (hpre e he)) rfl rfl
    | opened buffer =>
      obtain rfl : buffer = image := hv
      exact hf.writes h rfl rfl
    | written => exact hf.ends h rfl rfl
  | _ => exact hf.of_same rfl rfl (fun _ => rfl) (fun _ => rfl)

/-! ## Runs -/

/-- The first captures, one after the other, the `i`-th of one byte `i`. -/
def captures (n : Nat) : List (Action Buffer) :=
  [.setTimer, .setter 0 0, .setter 0 0, .setter 0 0] ++ (List.range n).flatMap fun i =>
    .expire :: .invoke 0 :: List.replicate 9 (.handler 0 (10 * i) [UInt8.ofNat i])

/-- The oldest saves, one after the other. -/
def savesOldest (n : Nat) : List (Action Buffer) := List.replicate (4 * n) (.save 0 true)

/-- Captures past a turn of the ring, with time for the first saves: slot `0` is posted again, and
its save goes on between those of two others. -/
def overlappingSaves : List (Action Buffer) :=
  captures 99 ++ savesOldest 9 ++ (captures 102).drop (captures 99).length ++
    [.save 0 true, .save 1 true, .save 2 true, .save 1 true, .save 0 true, .save 2 true,
      .save 1 true, .save 0 true, .save 2 true, .save 1 true, .save 0 true, .save 0 true]

/-- **Timely runs save every image that they post**, each in its turn, and the files end up with
the images posted last. -/
theorem saved_of_timely {as : List (Action γ)}
    (h : (threads cfg grabPicture).Steps (fun p a _ => Timely p a) Process.init as)
    (hr : (threads cfg grabPicture).run Process.init as = .ok p) :
    Saved cfg p ((threads cfg grabPicture).log Process.init as) := by
  have hstep : ∀ p os a p' o, Backed p ∧ Filed cfg p os → Timely p a →
      (threads cfg grabPicture).exec p a = .ok (p', o) → Backed p' ∧ Filed cfg p' (os ++ [o]) := by
    rintro p os a p' o ⟨hb, hf⟩ ht he
    exact ⟨hb.taken ht (exec_taken he), hf.taken hb ht (exec_taken he)⟩
  have hinit : Backed Process.init ∧ Filed cfg Process.init [] := ⟨backed_init, filed_init⟩
  have hlast := Machine.steps_log_invariant hstep hinit h hr
  exact hlast.2.saved

theorem saved_of_timely_overlapping : ∃ p,
    (threads ⟨10, 100, "img"⟩ id).run Process.init overlappingSaves = .ok p ∧
      Saved ⟨10, 100, "img"⟩ p
        ((threads ⟨10, 100, "img"⟩ id).log Process.init overlappingSaves) := by
  obtain ⟨p, hp⟩ := Machine.exists_run (M := threads ⟨10, 100, "img"⟩ id) Process.init
    overlappingSaves
  exact ⟨p, hp, saved_of_timely (by decide +kernel) hp⟩

/-- A turn of captures before the first save. -/
def lateSaves : List (Action Buffer) := captures 101 ++ savesOldest 9

/-- The save of the first image writes the last one. -/
theorem not_saved_lateSaves : ∃ p,
    (threads ⟨10, 100, "img"⟩ id).run Process.init lateSaves = .ok p ∧
      p.saves.length = 0 ∧ p.files "img0000.jpg" = some [100] ∧
      postings 0 ((threads ⟨10, 100, "img"⟩ id).log Process.init lateSaves) = [[0]] ∧
      writings 0 ((threads ⟨10, 100, "img"⟩ id).log Process.init lateSaves) = [[100]] ∧
      ¬ Saved ⟨10, 100, "img"⟩ p ((threads ⟨10, 100, "img"⟩ id).log Process.init lateSaves) := by
  obtain ⟨p, hp⟩ := Machine.exists_run (M := threads ⟨10, 100, "img"⟩ id) Process.init lateSaves
  have hend : ((threads ⟨10, 100, "img"⟩ id).run Process.init lateSaves).map
      (fun p => (p.saves.length, p.files "img0000.jpg")) = .ok (0, some [100]) := by
    decide +kernel
  have hposted : postings 0 ((threads ⟨10, 100, "img"⟩ id).log Process.init lateSaves) =
      [[0]] := by decide +kernel
  have hwrote : writings 0 ((threads ⟨10, 100, "img"⟩ id).log Process.init lateSaves) =
      [[100]] := by decide +kernel
  rw [hp] at hend
  obtain ⟨hsaves, hfile⟩ := Prod.ext_iff.mp (Except.ok.inj hend)
  refine ⟨p, hp, hsaves, hfile, hposted, hwrote, fun h => ?_⟩
  have honce := h.once 0
  rw [hposted, hwrote] at honce
  cases honce

end Camerasp.Timer
