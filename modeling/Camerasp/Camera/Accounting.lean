import Camerasp.Camera.Safety

/-!
# What `initialize` and `release` leave behind

Runs of `initialize` and `release` alone. `Accounts` is what is wanted of a call: an `initialize`
that fails returns with nothing live and the object as it was, and a `release` of an initialised
object with nothing live. `Accountable` is the condition on the failures under which a call does
so; the two agree on every run (`accounts_iff`).

A `release` of an initialised object never does: `createEncoder` has overwritten the pointer to
the camera's pool. A failing `initialize` does only where there is no camera, or one without output
ports, which has to go. Of any other it leaves `camera_still_port`; from `commitParameters` on it
leaves `changedSettings` down as well, and a retry sends no settings.
-/

namespace Camerasp.Camera

open Camerasp.Lib (Machine)

/-- Nothing the object has created is live. -/
structure Clean (st : State) : Prop where
  components : st.res.components = []
  pools : st.res.pools = []
  connections : st.res.connections = []

inductive Op
  | initializeCam (o : Outcomes)
  | release (o : Outcomes)

def Op.call : Op → Call
  | .initializeCam o => .initializeCam o
  | .release o => .release o

/-- One object and its `initialize` and `release` calls. -/
def lifecycle : Machine State Op Int32 Stop where
  exec st op := machine.exec st op.call

/-- Nothing is live, and the object is as it was in `st`. -/
structure Undone (st st' : State) : Prop where
  clean : Clean st'
  ptr : st'.ptr = st.ptr
  settings : st'.settings = st.settings
  changedSettings : st'.changedSettings = st.changedSettings
  isInitialized : st'.isInitialized = st.isInitialized

/-- What is wanted of a call. One that runs into a null or dangling pointer does not return. -/
def Accounts (st : State) (op : Op) (r : Except Stop (State × Int32)) : Prop :=
  match op with
  | .initializeCam _ => ∃ st' v, r = .ok (st', v) ∧ (v ≠ 0 → Undone st st')
  | .release _ => st.isInitialized → ∃ st' v, r = .ok (st', v) ∧ Clean st'

/-- `initialize` gets no camera, or one without output ports, and that one goes. -/
def Outcomes.Early (o : Outcomes) : Prop :=
  o.camera = .null ∨ o.camera = .created ∧ ¬ o.cameraOutputs ∧ o.destroyCamera

/-- The calls after which nothing is left over. -/
def Accountable (st : State) : Op → Prop
  | .initializeCam o => st.isInitialized ∨ o.initializes ∨ o.Early
  | .release _ => ¬ st.isInitialized

/-- What `Accountable` calls keep: the object is initialised, with the camera's pool out of reach,
or nothing is live and the fields are those of the constructor. -/
def Settled (st : State) : Prop :=
  if st.isInitialized then
    ∃ n, Wired n (n + 2) (n + 3) (n + 4) st ∧ (n + 1, ⟨n, .output 2⟩) ∈ st.res.pools
  else Clean st ∧ st.ptr = State.init.ptr ∧ st.changedSettings

variable {o : Outcomes} {st st' : State}

theorem settled_init : Settled State.init := ⟨⟨rfl, rfl, rfl⟩, rfl, rfl⟩

theorem settled_initialized : Settled (initialized o st) :=
  ⟨st.res.next, wired_initialized, by simp [initialized, encoderMade, cameraMade]⟩

theorem CameraGone.nothing_left_iff (hg : CameraGone o st st') (hc : Clean st) :
    Clean st' ↔ (o.camera = .created → o.destroyCamera) := by
  constructor
  · intro h hcr
    by_contra hd
    have := hg.components
    rw [h.components, if_pos ⟨hcr, hd⟩] at this
    cases this
  · intro h
    refine ⟨?_, by rw [hg.pools, hc.pools], by rw [hg.connections, hc.connections]⟩
    rw [hg.components, if_neg (by simpa using h), hc.components]

theorem staleFree_of_ptr (h : st.ptr = State.init.ptr) : StaleFree st := by
  intro _ q hq
  rw [h] at hq
  cases hq

/-- A failure before `commitParameters` is reached. -/
theorem Outcomes.Early.not_cameraUp (h : o.Early) : ¬ o.cameraUp := by
  intro hu
  obtain ⟨hcr, hout, -⟩ :=
    Outcomes.reachesCommit_iff.mp (Outcomes.reachesCommit_of_cameraUp hu)
  rcases h with h | ⟨-, h, -⟩
  · rw [hcr] at h
    cases h
  · exact h hout

section Uninitialized

variable (hi : ¬ st.isInitialized) (hp : st.ptr = State.init.ptr)

include hi hp

/-- An `initialize` that undoes what it did. -/
theorem initializeCam_undone (hc : Clean st) (h : o.Early) :
    ∃ st', initializeCam o st = .ok (-1, st') ∧ Undone st st' := by
  have hd : o.camera ≠ .dangling := by
    rcases h with h | ⟨h, -⟩ <;> simp [h]
  obtain ⟨st', he, hg⟩ := initializeCam_cameraDown hi h.not_cameraUp hd
    (fun _ => (staleFree_of_ptr hp).withCamera)
  have hgone : o.camera = .created → o.destroyCamera := by
    intro hcr
    rcases h with h | ⟨-, -, h⟩
    · rw [hcr] at h
      cases h
    · exact h
  have hout : o.camera = .created → ¬ o.cameraOutputs := by
    intro hcr
    rcases h with h | ⟨-, h, -⟩
    · rw [hcr] at h
      cases h
    · exact h
  obtain ⟨hptr, hch⟩ := hg.early hout
  refine ⟨st', he, (hg.nothing_left_iff hc).mpr hgone, ?_, hg.settings, hch, hg.isInitialized⟩
  rw [hptr, hp]
  rfl

/-- Any other `initialize` that fails leaves `camera_still_port`, or `changedSettings` down. -/
theorem initializeCam_marked (hch : st.changedSettings) (hcr : o.camera = .created)
    (hout : o.cameraOutputs) {st' : State} (h : initializeCam o st = .ok (-1, st')) :
    ¬ Undone st st' := by
  intro hun
  by_cases hu : o.cameraUp
  · -- From `commitParameters` on `changedSettings` is down.
    have hdown : st'.changedSettings = false := by
      rcases initializeCam_inv hi h with ⟨-, hr, -⟩ | ⟨-, hf⟩
      · exact absurd hr (by decide)
      · exact hf.changedSettings hu
    rw [hun.changedSettings, hch] at hdown
    cases hdown
  · have hd : o.camera ≠ .dangling := by simp [hcr]
    obtain ⟨st'', h', hg⟩ := initializeCam_cameraDown hi hu hd
      (fun _ => (staleFree_of_ptr hp).withCamera)
    cases h.symm.trans h'
    have hstill := hg.late hcr hout
    rw [hun.ptr, hp] at hstill
    cases hstill

/-- **An `initialize` that fails undoes what it did exactly where it is `Early`.** -/
theorem initializeCam_undone_iff (hc : Clean st) (hch : st.changedSettings)
    (hall : ¬ o.initializes) :
    o.Early ↔ ∃ st' v, initializeCam o st = .ok (v, st') ∧ (v ≠ 0 → Undone st st') := by
  constructor
  · intro h
    obtain ⟨st', he, hun⟩ := initializeCam_undone hi hp hc h
    exact ⟨st', -1, he, fun _ => hun⟩
  rintro ⟨st', v, he, hun⟩
  have hv : v = -1 := by
    rcases initializeCam_inv hi he with ⟨hall', -, -⟩ | ⟨hv, -⟩
    · exact absurd hall' hall
    · exact hv
  subst hv
  replace hun := hun (by decide)
  cases hcr : o.camera with
  | null => exact .inl hcr
  | dangling =>
    have hn : st.res.next ∉ st.res.components := by simp [hc.components]
    cases he.symm.trans (initializeCam_cameraStops hi (createCamera_dangling hcr hn))
  | created =>
    by_cases hout : o.cameraOutputs
    · exact absurd hun (initializeCam_marked hi hp hch hcr hout he)
    · refine .inr ⟨hcr, hout, ?_⟩
      have hu : ¬ o.cameraUp := fun hu =>
        hout (Outcomes.reachesCommit_iff.mp (Outcomes.reachesCommit_of_cameraUp hu)).2.1
      obtain ⟨st'', h', hg⟩ := initializeCam_cameraDown hi hu (by simp [hcr])
        (fun _ => (staleFree_of_ptr hp).withCamera)
      cases he.symm.trans h'
      exact (hg.nothing_left_iff hc).mp hun.clean hcr

end Uninitialized

/-- A release of an initialised object loses the camera's pool. -/
theorem release_leaves {n : Nat} (hi : st.isInitialized)
    (hw : Wired n (n + 2) (n + 3) (n + 4) st) (hp : (n + 1, ⟨n, .output 2⟩) ∈ st.res.pools) :
    ∃ st', release o st = .ok st' ∧ ¬ Clean st' := by
  obtain ⟨d, h⟩ := hw.release_eq (o := o) hi
  refine ⟨_, h, fun hc' => ?_⟩
  have hmem : (n + 1, (⟨n, .output 2⟩ : PortId)) ∈
      (st.res.pools.filter (·.1 ≠ n + 3)) := List.mem_filter.mpr ⟨hp, by simp⟩
  have hnil := hc'.pools
  simp only [Resources.destroyComponent_pools, Resources.destroyPool,
    Resources.destroyConnection_pools] at hnil
  rw [hnil] at hmem
  cases hmem

/-! ## Runs -/

theorem accountable_iff (hs : Settled st) (op : Op) :
    Accountable st op ↔ Accounts st op (lifecycle.exec st op) := by
  unfold Settled at hs
  cases op with
  | initializeCam o =>
    by_cases hi : st.isInitialized
    · have he := exec_initializeCam (initializeCam_again (o := o) hi)
      exact iff_of_true (.inl hi) ⟨st, 0, he, fun h => absurd rfl h⟩
    obtain ⟨hc, hp, hch⟩ := if_neg hi ▸ hs
    by_cases hall : o.initializes
    · have hsf := (staleFree_of_ptr hp).withCamera
      have he := exec_initializeCam (initializeCam_up hi hall hsf)
      exact iff_of_true (.inr (.inl hall)) ⟨_, 0, he, fun h => absurd rfl h⟩
    have hacc : Accountable st (.initializeCam o) ↔ o.Early := by
      simp [Accountable, hi, hall]
    rw [hacc, initializeCam_undone_iff hi hp hc hch hall]
    constructor
    · rintro ⟨st', v, he, hun⟩
      exact ⟨st', v, exec_initializeCam he, hun⟩
    · rintro ⟨st', v, he, hun⟩
      exact ⟨st', v, exec_initializeCam_inv he, hun⟩
  | release o =>
    by_cases hi : st.isInitialized
    · obtain ⟨n, hw, hp⟩ := if_pos hi ▸ hs
      obtain ⟨st', h, hl⟩ := release_leaves (o := o) hi hw hp
      refine iff_of_false (fun ha => ha hi) fun hacc => ?_
      obtain ⟨st'', v, he, hc'⟩ := hacc hi
      cases he.symm.trans (exec_release h)
      exact hl hc'
    · exact iff_of_true hi fun hi' => absurd hi' hi

theorem settled_step (hs : Settled st) {op : Op} {v : Int32} (ha : Accountable st op)
    (he : lifecycle.exec st op = .ok (st', v)) : Settled st' := by
  cases op with
  | initializeCam o =>
    by_cases hi : st.isInitialized
    · cases he.symm.trans (exec_initializeCam (initializeCam_again (o := o) hi))
      exact hs
    have hs' := hs
    unfold Settled at hs'
    obtain ⟨hc, hp, hch⟩ := if_neg hi ▸ hs'
    rcases Or.resolve_left ha hi with hall | hun
    · have hsf := (staleFree_of_ptr hp).withCamera
      cases he.symm.trans (exec_initializeCam (initializeCam_up hi hall hsf))
      exact settled_initialized
    · obtain ⟨st'', h, hun⟩ := initializeCam_undone hi hp hc hun
      cases he.symm.trans (exec_initializeCam h)
      unfold Settled
      rw [if_neg (hun.isInitialized ▸ hi)]
      exact ⟨hun.clean, hun.ptr.trans hp, hun.changedSettings ▸ hch⟩
  | release o =>
    cases he.symm.trans (exec_release (release_again (o := o) ha))
    exact hs

/-- **`initialize` and `release` account for everything in exactly the runs whose calls are all
`Accountable`.** -/
theorem accounts_iff (ops : List Op) :
    lifecycle.Steps (fun st op _ => Accountable st op) State.init ops ↔
      lifecycle.Steps Accounts State.init ops :=
  Machine.steps_iff_of_inv (fun _ op hs => accountable_iff hs op)
    (fun _ _ _ _ hs ha he => settled_step hs ha he) settled_init

/-- Every MMAL call succeeds, and the camera's pool is live after the release. -/
theorem release_not_accounts :
    ¬ lifecycle.Steps Accounts State.init [.initializeCam .succeed, .release .succeed] := by
  rintro ⟨-, h⟩
  obtain ⟨h, -⟩ := h _ _ rfl
  obtain ⟨st', v, he, hc⟩ := h rfl
  cases he
  exact absurd hc.pools (by decide)

end Camerasp.Camera
