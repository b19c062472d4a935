import Camerasp.Camera.Device
import Mathlib.Tactic.Common

/-!
# What `initialize` makes of each pattern of failures

One lemma for each way a stage of `initialize` (`createCamera`, `createEncoder`, the connection)
ends: the pointers and the live resources it leaves, or the fault it runs into. The device's own
state stays unspecified.
-/

namespace Camerasp.Camera

namespace Outcomes

variable (o : Outcomes)

/-- `createCamera` gets to `commitParameters`. -/
def reachesCommit : Bool := o.camera = .created && o.cameraOutputs && o.enableControl

/-- `createCamera` succeeds. -/
def cameraUp : Bool := o.reachesCommit && o.commitStill && o.enableCamera && o.cameraPool

/-- `createEncoder` gets to its pool. -/
def encoderReady : Bool :=
  o.encoder = .created && o.encoderInputs && o.encoderOutputs && o.commitEncoder && o.enableEncoder

/-- `createEncoder` succeeds. -/
def encoderUp : Bool := o.encoderReady && o.encoderPool

/-- `connectPorts` succeeds. -/
def connects : Bool := o.connection = .connected && o.enableConnection

/-- Every call of `initialize` that can fail it succeeds. -/
def initializes : Bool := o.cameraUp && o.encoderUp && o.connects

/-- Every MMAL call succeeds. -/
def succeed : Outcomes where
  camera := .created
  cameraOutputs := true
  enableControl := true
  parameter _ _ := true
  commitStill := true
  enableCamera := true
  cameraPool := true
  cameraBuffers := 3
  encoder := .created
  encoderInputs := true
  encoderOutputs := true
  commitEncoder := true
  enableEncoder := true
  encoderPool := true
  encoderBuffers := 1
  connection := .connected
  enableConnection := true
  destroyConnection := true
  destroyCamera := true
  destroyEncoder := true
  commitEncoding := true
  enableOutput := true
  send _ := true
  delivered := []
  disableOutput := true

/-- And the encoder delivers a picture in one buffer. -/
def shot : Outcomes := { succeed with delivered := [⟨0, fun _ => 7, 0, 3, endFlag⟩] }

end Outcomes

variable {o : Outcomes} {st st' : State}

/-! ## Committing the settings -/

/-- `commitParameters` would not use an output port of a destroyed encoder. -/
def StaleFree (st : State) : Prop :=
  st.changedSettings → ∀ q, st.ptr.encoderOutputPort = some q → q.component ∈ st.res.components

theorem component_some {c : Nat} {w : Resources} (h : c ∈ w.components) :
    component (some c) w = .ok c := if_pos h

theorem portOf_some {q : PortId} {w : Resources} (h : q.component ∈ w.components) :
    portOf (some q) w = .ok q := if_pos h

theorem outputPort?_eq (h : ∀ q, st.ptr.encoderOutputPort = some q →
    q.component ∈ st.res.components) : outputPort? st = .ok () := by
  unfold outputPort?
  cases hq : st.ptr.encoderOutputPort with
  | none => rfl
  | some q =>
    simp only [portOf_some (h q hq)]
    rfl

/-- The device after `commitParameters` on camera `c`. -/
def commitDevice (o : Outcomes) (c : Nat) (st : State) : Device :=
  if st.changedSettings then
    commitEncoding o st.settings st.ptr.encoderOutputPort
      { st.dev with
        accepted := commitAll o st.settings c st.ptr.encoderOutputPort st.dev.accepted }
  else st.dev

theorem commitParameters_eq {c : Nat} (hc : st.ptr.camera = some c)
    (hm : c ∈ st.res.components) (hs : StaleFree st) :
    commitParameters o st =
      .ok { st with changedSettings := false, dev := commitDevice o c st } := by
  unfold commitParameters commitDevice
  cases hch : st.changedSettings with
  | false =>
    have hst : st = { st with changedSettings := false } := by rw [← hch]
    simpa using hst
  | true =>
    rw [hc, component_some hm]
    simp only [Bool.not_true, Bool.false_eq_true, if_false, if_true, outputPort?_eq (hs hch)]
    rfl

/-- With the output port of a destroyed encoder it faults. -/
theorem commitParameters_stale {c : Nat} (hc : st.ptr.camera = some c)
    (hm : c ∈ st.res.components) (hs : ¬ StaleFree st) :
    commitParameters o st = .error .destroyed := by
  simp only [StaleFree, not_forall] at hs
  obtain ⟨hch, q, hq, hmem⟩ := hs
  unfold commitParameters outputPort?
  rw [hch, hc, component_some hm, hq]
  simp only [portOf, if_neg hmem]
  rfl

/-! ## The camera -/

theorem destroyCamera_none (h : st.ptr.camera = none) : destroyCamera o st = .ok st := by
  unfold destroyCamera
  rw [h]

theorem destroyCamera_some {c : Nat} (h : st.ptr.camera = some c) (hm : c ∈ st.res.components) :
    destroyCamera o st = .ok { st with
      ptr := { st.ptr with camera := none }
      res := st.res.destroyComponent o.destroyCamera c
      dev := if o.destroyCamera then st.dev.disable c else st.dev } := by
  unfold destroyCamera
  rw [h, component_some hm]
  rfl

/-- The object when `createCamera` gets to `commitParameters`. -/
def configured (o : Outcomes) (c : Nat) (st : State) : State :=
  let control : PortId := ⟨c, .control⟩
  let d := st.dev.setPort control { st.dev.port control with isEnabled := true }
  { st with
    ptr := { st.ptr with cameraStillPort := some ⟨c, .output 2⟩ }
    dev := { d with
      accepted := sendParam o c .control .cameraConfig
        (.cameraConfig st.settings.width st.settings.height) d.accepted } }

/-- The device when the still port has its format. -/
def stillDevice (o : Outcomes) (c : Nat) (st : State) : Device :=
  (commitDevice o c (configured o c st)).commitFormat o.commitStill ⟨c, .output 2⟩
    ⟨mmalEncodingOpaque, st.settings.width, st.settings.height⟩

/-- The device when the still port has its pool. -/
def cameraDevice (o : Outcomes) (c : Nat) (st : State) : Device :=
  (stillDevice o c st).setPort ⟨c, .output 2⟩
    { (stillDevice o c st).port ⟨c, .output 2⟩ with queue := o.cameraBuffers }

section Camera

variable {c : Nat} (hc : st.ptr.camera = some c) (hm : c ∈ st.res.components)

include hc hm

theorem commitConfigured (hs : StaleFree st) : commitParameters o (configured o c st) =
    .ok { configured o c st with
      changedSettings := false
      dev := commitDevice o c (configured o c st) } := by
  have hc' : (configured o c st).ptr.camera = some c := hc
  exact commitParameters_eq hc' hm hs

theorem setUpCamera_up (hu : o.cameraUp) (hs : StaleFree st) :
    setUpCamera o c st = .ok (0, { st with
      ptr := { st.ptr with
        cameraStillPort := some ⟨c, .output 2⟩
        encoderPool := some st.res.next }
      changedSettings := false
      res := { st.res with
        next := st.res.next + 1
        pools := (st.res.next, ⟨c, .output 2⟩) :: st.res.pools }
      dev := cameraDevice o c st }) := by
  simp only [Outcomes.cameraUp, Outcomes.reachesCommit, Bool.and_eq_true] at hu
  obtain ⟨⟨⟨⟨⟨-, hout⟩, hctl⟩, hstill⟩, hen⟩, hpool⟩ := hu
  have hcommit := commitConfigured (o := o) hc hm hs
  unfold configured at hcommit
  unfold setUpCamera cameraDevice stillDevice configured
  simp only [hout, hctl, hstill, hen, hpool, hcommit, bind, Except.bind, Bool.not_true,
    Bool.false_eq_true, if_false, if_true, Resources.createPool]

/-- Every way out of `createCamera` on a failure. -/
theorem failWith_destroyCamera : failWith (destroyCamera o) st = .ok (-1, { st with
    ptr := { st.ptr with camera := none }
    res := st.res.destroyComponent o.destroyCamera c
    dev := if o.destroyCamera then st.dev.disable c else st.dev }) := by
  unfold failWith
  rw [destroyCamera_some hc hm]
  rfl

end Camera

/-- What a failed `createCamera` leaves: a null camera, and the component `c` it had created
destroyed, where that succeeds. Of a camera with output ports it leaves `camera_still_port`. -/
structure CameraGone (o : Outcomes) (st st' : State) : Prop where
  camera : st'.ptr.camera = none
  encoder : st'.ptr.encoder = st.ptr.encoder
  encoderConnection : st'.ptr.encoderConnection = st.ptr.encoderConnection
  encoderOutputPort : st'.ptr.encoderOutputPort = st.ptr.encoderOutputPort
  settings : st'.settings = st.settings
  changedSettings : st'.changedSettings → st.changedSettings
  isInitialized : st'.isInitialized = st.isInitialized
  numbered : st.res.Numbered → st'.res.Numbered
  components : st'.res.components =
    if o.camera = .created ∧ ¬ o.destroyCamera then st.res.next :: st.res.components
    else st.res.components
  pools : st'.res.pools = st.res.pools
  connections : st'.res.connections = st.res.connections
  wrongPools : st'.res.wrongPools = st.res.wrongPools
  late : o.camera = .created → o.cameraOutputs →
    st'.ptr.cameraStillPort = some ⟨st.res.next, .output 2⟩
  early : (o.camera = .created → ¬ o.cameraOutputs) →
    st'.ptr = { st.ptr with camera := none } ∧ st'.changedSettings = st.changedSettings

/-- `createCamera` with a component of its own. -/
def withCamera (st : State) : State :=
  { st with
    ptr := { st.ptr with camera := some st.res.next }
    res := { st.res with
      next := st.res.next + 1
      components := st.res.next :: st.res.components }
    dev := st.dev.reset st.res.next }

theorem createCamera_created (h : o.camera = .created) :
    createCamera o st = setUpCamera o st.res.next (withCamera st) := by
  unfold createCamera withCamera
  simp only [h, Resources.createComponent, ne_eq, not_true_eq_false, if_false]

theorem StaleFree.withCamera (h : StaleFree st) : StaleFree (withCamera st) :=
  fun hch q hq => List.mem_cons_of_mem _ (h hch q hq)

/-- The object after a successful `createCamera`. -/
def cameraMade (o : Outcomes) (st : State) : State :=
  { st with
    ptr := { st.ptr with
      camera := some st.res.next
      cameraStillPort := some ⟨st.res.next, .output 2⟩
      encoderPool := some (st.res.next + 1) }
    changedSettings := false
    res := { st.res with
      next := st.res.next + 2
      components := st.res.next :: st.res.components
      pools := (st.res.next + 1, ⟨st.res.next, .output 2⟩) :: st.res.pools }
    dev := cameraDevice o st.res.next (withCamera st) }

theorem numbered_cameraMade (h : st.res.Numbered) : (cameraMade o st).res.Numbered :=
  h.component.pool _

theorem Outcomes.reachesCommit_of_cameraUp (h : o.cameraUp) : o.reachesCommit := by
  simp only [Outcomes.cameraUp, Bool.and_eq_true] at h
  exact h.1.1.1

theorem Outcomes.reachesCommit_iff :
    o.reachesCommit ↔ o.camera = .created ∧ o.cameraOutputs ∧ o.enableControl := by
  simp [Outcomes.reachesCommit, and_assoc]

theorem createCamera_up (hu : o.cameraUp) (hs : StaleFree (withCamera st)) :
    createCamera o st = .ok (0, cameraMade o st) := by
  have hcr := (Outcomes.reachesCommit_iff.mp (Outcomes.reachesCommit_of_cameraUp hu)).1
  have hm : st.res.next ∈ (withCamera st).res.components := List.mem_cons_self
  rw [createCamera_created hcr, setUpCamera_up rfl hm hu hs]
  rfl

/-- An old output port of the encoder stops it. -/
theorem createCamera_stale (hr : o.reachesCommit) (hs : ¬ StaleFree (withCamera st)) :
    createCamera o st = .error .destroyed := by
  obtain ⟨hcr, hout, hctl⟩ := Outcomes.reachesCommit_iff.mp hr
  have hm : st.res.next ∈ (withCamera st).res.components := List.mem_cons_self
  have hcommit : commitParameters o (configured o st.res.next (withCamera st)) =
      .error .destroyed := commitParameters_stale rfl hm hs
  unfold configured at hcommit
  rw [createCamera_created hcr]
  unfold setUpCamera
  simp only [hout, hctl, hcommit, bind, Except.bind, Bool.not_true, Bool.false_eq_true, if_false]

/-- A camera that is set up and torn down again. -/
theorem cameraGone_of_setUp {st' : State} (h : o.camera = .created)
    (hp : st'.ptr.encoder = st.ptr.encoder ∧
      st'.ptr.encoderConnection = st.ptr.encoderConnection ∧
      st'.ptr.encoderOutputPort = st.ptr.encoderOutputPort)
    (hs : st'.settings = st.settings) (hch : st'.changedSettings → st.changedSettings)
    (hi : st'.isInitialized = st.isInitialized) (hc : st'.ptr.camera = some st.res.next)
    (hr : st'.res = (withCamera st).res)
    (hlate : o.cameraOutputs → st'.ptr.cameraStillPort = some ⟨st.res.next, .output 2⟩)
    (hearly : ¬ o.cameraOutputs →
      st'.ptr = (withCamera st).ptr ∧ st'.changedSettings = st.changedSettings) :
    ∃ st'', failWith (destroyCamera o) st' = .ok (-1, st'') ∧ CameraGone o st st'' := by
  have hm : st.res.next ∈ st'.res.components := by rw [hr]; exact List.mem_cons_self
  refine ⟨_, failWith_destroyCamera hc hm, ?_⟩
  obtain ⟨h1, h2, h3⟩ := hp
  constructor
  case changedSettings => exact hch
  case components =>
    cases hd : o.destroyCamera <;>
      simp [Resources.destroyComponent_components, withCamera, h, hr]
  case numbered =>
    rw [hr]
    exact fun hn => hn.component.destroyComponent _ _
  case late => exact fun _ => hlate
  case early =>
    intro hout
    obtain ⟨hptr, hch'⟩ := hearly (hout h)
    exact ⟨congrArg (fun ptr : Pointers => { ptr with camera := none }) hptr, hch'⟩
  all_goals simp [withCamera, *]

theorem createCamera_down (hu : ¬ o.cameraUp) (hd : o.camera ≠ .dangling)
    (hs : o.reachesCommit → StaleFree (withCamera st)) :
    ∃ st', createCamera o st = .ok (-1, st') ∧ CameraGone o st st' := by
  cases hcr : o.camera with
  | dangling => exact absurd hcr hd
  | null =>
    refine ⟨{ st with ptr := { st.ptr with camera := none } }, ?_, ?_⟩
    · unfold createCamera
      simp only [hcr, Resources.createComponent]
      rfl
    · constructor <;> simp [hcr]
  | created =>
    have hm : st.res.next ∈ (withCamera st).res.components := List.mem_cons_self
    have hn : (withCamera st).ptr.camera = some st.res.next := rfl
    rw [createCamera_created hcr]
    unfold setUpCamera
    by_cases hout : o.cameraOutputs
    swap
    · simp only [hout, Bool.not_false, if_true]
      exact cameraGone_of_setUp hcr ⟨rfl, rfl, rfl⟩ rfl id rfl rfl rfl (fun h => absurd h hout)
        (fun _ => ⟨rfl, rfl⟩)
    have hearly : ∀ {P : Prop}, ¬ o.cameraOutputs → P := fun h => absurd hout h
    by_cases hctl : o.enableControl
    swap
    · simp only [hout, hctl, Bool.not_true, Bool.not_false, Bool.false_eq_true, if_false, if_true]
      exact cameraGone_of_setUp hcr ⟨rfl, rfl, rfl⟩ rfl id rfl rfl rfl (fun _ => rfl) hearly
    have hreach : o.reachesCommit := Outcomes.reachesCommit_iff.mpr ⟨hcr, hout, hctl⟩
    have hcommit := commitConfigured (o := o) hn hm (hs hreach)
    unfold configured at hcommit
    simp only [hout, hctl, hcommit, bind, Except.bind, Bool.not_true, Bool.false_eq_true, if_false]
    by_cases hstill : o.commitStill
    swap
    · simp only [hstill, Bool.not_false, if_true]
      exact cameraGone_of_setUp hcr ⟨rfl, rfl, rfl⟩ rfl nofun rfl rfl rfl (fun _ => rfl) hearly
    by_cases hen : o.enableCamera
    swap
    · simp only [hstill, hen, Bool.not_true, Bool.not_false, Bool.false_eq_true, if_false, if_true]
      exact cameraGone_of_setUp hcr ⟨rfl, rfl, rfl⟩ rfl nofun rfl rfl rfl (fun _ => rfl) hearly
    have hpool : o.cameraPool = false := by
      simpa [Outcomes.cameraUp, hreach, hstill, hen] using hu
    simp only [hstill, hen, hpool, Bool.not_true, Bool.not_false, Bool.false_eq_true, if_false,
      if_true, Resources.createPool]
    exact cameraGone_of_setUp hcr ⟨rfl, rfl, rfl⟩ rfl nofun rfl rfl rfl (fun _ => rfl) hearly

/-- Where the component was freed on the way, the clean-up goes through the pointer to it. -/
theorem createCamera_dangling (h : o.camera = .dangling) (hn : st.res.next ∉ st.res.components) :
    createCamera o st = .error .destroyed := by
  unfold createCamera failWith destroyCamera
  simp only [h, Resources.createComponent, component, if_neg hn]
  rfl

/-! ## The encoder -/

/-- `createEncoder` with a component of its own. -/
def withEncoder (st : State) : State :=
  { st with
    ptr := { st.ptr with encoder := some st.res.next }
    res := { st.res with
      next := st.res.next + 1
      components := st.res.next :: st.res.components }
    dev := st.dev.reset st.res.next }

theorem createEncoder_created (h : o.encoder = .created) :
    createEncoder o st = setUpEncoder o st.res.next (withEncoder st) := by
  unfold createEncoder withEncoder
  simp only [h, Resources.createComponent, ne_eq, not_true_eq_false, if_false]

/-- The device when the encoder's output port has its format. -/
def outputDevice (o : Outcomes) (e : Nat) (st : State) : Device :=
  st.dev.commitFormat o.commitEncoder ⟨e, .output 0⟩
    { st.dev.format ⟨e, .input 0⟩ with encoding := convertEncoding st.settings.encoding }

/-- The device when the encoder's output port has its pool. -/
def encoderDevice (o : Outcomes) (e : Nat) (st : State) : Device :=
  (outputDevice o e st).setPort ⟨e, .output 0⟩
    { (outputDevice o e st).port ⟨e, .output 0⟩ with queue := o.encoderBuffers }

/-- The object after a successful `createEncoder`. -/
def encoderMade (o : Outcomes) (st : State) : State :=
  { st with
    ptr := { st.ptr with
      encoder := some st.res.next
      encoderInputPort := some ⟨st.res.next, .input 0⟩
      encoderOutputPort := some ⟨st.res.next, .output 0⟩
      encoderPool := some (st.res.next + 1) }
    res := { st.res with
      next := st.res.next + 2
      components := st.res.next :: st.res.components
      pools := (st.res.next + 1, ⟨st.res.next, .output 0⟩) :: st.res.pools }
    dev := encoderDevice o st.res.next (withEncoder st) }

theorem numbered_encoderMade (h : st.res.Numbered) : (encoderMade o st).res.Numbered :=
  h.component.pool _

theorem createEncoder_up (hu : o.encoderUp) :
    createEncoder o st = .ok (0, encoderMade o st) := by
  simp only [Outcomes.encoderUp, Outcomes.encoderReady, Bool.and_eq_true, decide_eq_true_eq] at hu
  obtain ⟨⟨⟨⟨⟨hcr, hin⟩, hout⟩, hcommit⟩, hen⟩, hpool⟩ := hu
  rw [createEncoder_created hcr]
  unfold setUpEncoder encoderMade encoderDevice outputDevice
  simp only [hin, hout, hcommit, hen, hpool, Bool.not_true, Bool.or_self, Bool.false_eq_true,
    if_false, if_true, Resources.createPool]
  rfl

theorem destroyEncoderPool_some {b : Bool} {e p : Nat} (hp : st.ptr.encoderPool = some p)
    (he : st.ptr.encoder = some e) (hm : e ∈ st.res.components)
    (hk : p ∈ st.res.pools.map Prod.fst) :
    destroyEncoderPool b st = if b then
      .ok { st with res := st.res.destroyPool ⟨e, .output 0⟩ p } else .error .null := by
  unfold destroyEncoderPool
  rw [hp, he, component_some hm]
  cases b with
  | false => rfl
  | true =>
    simp only [pool, if_pos hk]
    rfl

/-- The encoder goes after its pool. -/
theorem destroyEncoder_of_pool {b : Bool} {e : Nat} {st' : State}
    (h : destroyEncoderPool b st = .ok st') (he : st'.ptr.encoder = some e)
    (hm : e ∈ st'.res.components) :
    destroyEncoder o b st = .ok { st' with
      ptr := { st'.ptr with encoder := none }
      res := st'.res.destroyComponent o.destroyEncoder e
      dev := if o.destroyEncoder then st'.dev.disable e else st'.dev } := by
  unfold destroyEncoder
  rw [h]
  simp only [bind, Except.bind, he, component_some hm]

/-- What a failed `createEncoder` leaves of the object: a null encoder, and the component it had
created destroyed, where that succeeds. -/
structure EncoderGone (o : Outcomes) (st st' : State) : Prop where
  camera : st'.ptr.camera = st.ptr.camera
  encoder : st'.ptr.encoder = none
  settings : st'.settings = st.settings
  changedSettings : st'.changedSettings = st.changedSettings
  isInitialized : st'.isInitialized = st.isInitialized
  numbered : st.res.Numbered → st'.res.Numbered
  components : st'.res.components =
    if o.destroyEncoder then st.res.components else st.res.next :: st.res.components
  connections : st'.res.connections = st.res.connections

section Encoder

/-- Where the pool fails, `encoderPool` is null and only the encoder goes. -/
theorem createEncoder_noPool (hr : o.encoderReady) (hp : ¬ o.encoderPool) :
    ∃ st', createEncoder o st = .ok (-1, st') ∧ EncoderGone o st st' ∧
      st'.res.pools = st.res.pools ∧ st'.res.wrongPools = st.res.wrongPools := by
  simp only [Outcomes.encoderReady, Bool.and_eq_true, decide_eq_true_eq] at hr
  obtain ⟨⟨⟨⟨hcr, hin⟩, hout⟩, hcommit⟩, hen⟩ := hr
  rw [createEncoder_created hcr]
  unfold setUpEncoder failWith
  simp only [hin, hout, hcommit, hen, hp, Bool.not_true, Bool.not_false, Bool.or_self,
    Bool.false_eq_true, if_false, if_true, Resources.createPool]
  rw [destroyEncoder_of_pool rfl rfl List.mem_cons_self]
  refine ⟨_, rfl, ?_, ?_, ?_⟩
  · constructor
    case numbered => exact fun hn => hn.component.destroyComponent _ _
    all_goals simp [Resources.destroyComponent_components, withEncoder]
  · simp [withEncoder]
  · simp [withEncoder]

variable {p : Nat} {q : PortId} (hp : st.ptr.encoderPool = some p) (hq : (p, q) ∈ st.res.pools)

include hp hq

/-- A failure before the encoder has its own pool: `encoderPool` is still the camera's. -/
theorem encoderGone_of_setUp {st' : State} (he : st'.ptr.encoder = some st.res.next)
    (hp' : st'.ptr.encoderPool = st.ptr.encoderPool) (hc : st'.ptr.camera = st.ptr.camera)
    (hs : st'.settings = st.settings) (hch : st'.changedSettings = st.changedSettings)
    (hi : st'.isInitialized = st.isInitialized) (hr : st'.res = (withEncoder st).res) :
    ∃ st'', failWith (destroyEncoder o true) st' = .ok (-1, st'') ∧ EncoderGone o st st'' ∧
      st''.res.pools = st.res.pools.filter (·.1 ≠ p) ∧
      st''.res.wrongPools = (if (p, ⟨st.res.next, .output 0⟩) ∈ st.res.pools then
        st.res.wrongPools else st.res.wrongPools + 1) := by
  have hm : st.res.next ∈ st'.res.components := by rw [hr]; exact List.mem_cons_self
  have hk : p ∈ st'.res.pools.map Prod.fst := by rw [hr]; exact List.mem_map_of_mem hq
  have hpool := destroyEncoderPool_some (b := true) (hp'.trans hp) he hm hk
  unfold failWith
  rw [destroyEncoder_of_pool hpool he hm]
  refine ⟨_, rfl, ?_, ?_, ?_⟩
  · constructor
    case numbered =>
      simp only [hr]
      exact fun hn => (hn.component.destroyPool _ _).destroyComponent _ _
    all_goals simp [Resources.destroyComponent_components, Resources.destroyPool, withEncoder, *]
  · simp [Resources.destroyPool, withEncoder, hr]
  · simp [Resources.destroyPool, withEncoder, hr]

/-- **A failure before the encoder's own pool destroys the camera's pool through the encoder.** -/
theorem createEncoder_early (hcr : o.encoder = .created) (hout : o.encoderOutputs)
    (hr : ¬ o.encoderReady) :
    ∃ st', createEncoder o st = .ok (-1, st') ∧ EncoderGone o st st' ∧
      st'.res.pools = st.res.pools.filter (·.1 ≠ p) ∧
      st'.res.wrongPools = (if (p, ⟨st.res.next, .output 0⟩) ∈ st.res.pools then
        st.res.wrongPools else st.res.wrongPools + 1) := by
  rw [createEncoder_created hcr]
  unfold setUpEncoder
  by_cases hin : o.encoderInputs
  swap
  · simp only [hin, hout, Bool.not_false, Bool.true_or, if_true]
    exact encoderGone_of_setUp hp hq rfl rfl rfl rfl rfl rfl rfl
  by_cases hcommit : o.commitEncoder
  swap
  · simp only [hin, hout, hcommit, Bool.not_true, Bool.not_false, Bool.or_self,
      Bool.false_eq_true, if_false, if_true]
    exact encoderGone_of_setUp hp hq rfl rfl rfl rfl rfl rfl rfl
  have hen : o.enableEncoder = false := by
    simpa [Outcomes.encoderReady, hcr, hin, hout, hcommit] using hr
  simp only [hin, hout, hcommit, hen, Bool.not_true, Bool.not_false, Bool.or_self,
    Bool.false_eq_true, if_false, if_true]
  exact encoderGone_of_setUp hp hq rfl rfl rfl rfl rfl rfl rfl

omit hq in
/-- A failed `mmal_component_create` of the encoder: the pool goes through its null pointer. -/
theorem createEncoder_null (hcr : o.encoder = .null) : createEncoder o st = .error .null := by
  unfold createEncoder failWith destroyEncoder destroyEncoderPool
  simp only [hcr, Resources.createComponent, hp]
  rfl

omit hq in
theorem createEncoder_dangling (hcr : o.encoder = .dangling)
    (hn : st.res.next ∉ st.res.components) : createEncoder o st = .error .destroyed := by
  unfold createEncoder failWith destroyEncoder destroyEncoderPool
  simp only [hcr, Resources.createComponent, hp, component, if_neg hn]
  rfl

/-- An encoder without output ports: the pool goes through the first of them. -/
theorem createEncoder_noOutputs (hcr : o.encoder = .created) (hout : ¬ o.encoderOutputs) :
    createEncoder o st = .error .null := by
  have hm : st.res.next ∈ (withEncoder st).res.components := List.mem_cons_self
  have hk : p ∈ (withEncoder st).res.pools.map Prod.fst := List.mem_map_of_mem hq
  have hp' : (withEncoder st).ptr.encoderPool = some p := hp
  rw [createEncoder_created hcr]
  unfold setUpEncoder failWith destroyEncoder
  simp only [hout, Bool.not_false, Bool.or_true, if_true]
  rw [destroyEncoderPool_some hp' rfl hm hk]
  rfl

end Encoder

/-! ## The connection -/

/-- `initialize` when the camera and the encoder are up. -/
theorem connectAll_up {c e : Nat} (hc : st.ptr.camera = some c) (hcm : c ∈ st.res.components)
    (he : st.ptr.encoder = some e) (hem : e ∈ st.res.components) (hcn : o.connects) :
    connectAll o st = .ok (0, { st with
      ptr := { st.ptr with
        encoderConnection := some st.res.next
        cameraStillPort := some ⟨c, .output 2⟩
        encoderInputPort := some ⟨e, .input 0⟩
        encoderOutputPort := some ⟨e, .output 0⟩ }
      isInitialized := true
      res := { st.res with
        next := st.res.next + 1
        connections := st.res.next :: st.res.connections } }) := by
  simp only [Outcomes.connects, Bool.and_eq_true, decide_eq_true_eq] at hcn
  obtain ⟨hk, hen⟩ := hcn
  unfold connectAll connectPorts
  simp only [hc, he, component_some hcm, component_some hem, portOf, hcm, hem, hk, hen, bind,
    Except.bind, Resources.createConnection, Bool.not_true, Bool.false_eq_true, if_false, if_true]

/-- What `initialize` leaves when only the connection fails: nothing is undone. -/
structure Unconnected (st st' : State) : Prop where
  camera : st'.ptr.camera = st.ptr.camera
  encoder : st'.ptr.encoder = st.ptr.encoder
  settings : st'.settings = st.settings
  changedSettings : st'.changedSettings = st.changedSettings
  isInitialized : st'.isInitialized = st.isInitialized
  numbered : st.res.Numbered → st'.res.Numbered
  components : st'.res.components = st.res.components
  pools : st'.res.pools = st.res.pools
  wrongPools : st'.res.wrongPools = st.res.wrongPools
  dev : st'.dev = st.dev

theorem connectAll_down {c e : Nat} (hc : st.ptr.camera = some c) (hcm : c ∈ st.res.components)
    (he : st.ptr.encoder = some e) (hem : e ∈ st.res.components) (hcn : ¬ o.connects) :
    ∃ st', connectAll o st = .ok (-1, st') ∧ Unconnected st st' := by
  unfold connectAll connectPorts
  simp only [hc, he, component_some hcm, component_some hem, portOf, hcm, hem, bind, Except.bind,
    if_true]
  cases hk : o.connection with
  | freed =>
    refine ⟨_, rfl, ?_⟩
    constructor <;> simp [hc, he, Resources.createConnection]
  | live =>
    refine ⟨_, rfl, ?_⟩
    constructor
    case numbered => exact fun hn => hn.connection
    all_goals simp [hc, he, Resources.createConnection]
  | connected =>
    have hen : o.enableConnection = false := by simpa [Outcomes.connects, hk] using hcn
    simp only [hen, Resources.createConnection, connection, List.mem_cons_self, if_true]
    refine ⟨_, rfl, ?_⟩
    constructor
    case numbered => exact fun hn => hn.connection.destroyConnection _ _
    all_goals simp [hc, he]

/-! ## `initialize` -/

/-- The object after a successful `initialize`. -/
def initialized (o : Outcomes) (st : State) : State :=
  let st := encoderMade o (cameraMade o st)
  { st with
    ptr := { st.ptr with encoderConnection := some st.res.next }
    isInitialized := true
    res := { st.res with
      next := st.res.next + 1
      connections := st.res.next :: st.res.connections } }

theorem initializeCam_again (h : st.isInitialized) : initializeCam o st = .ok (0, st) := by
  unfold initializeCam
  rw [if_pos h]

section Initialize

variable (hi : ¬ st.isInitialized)

include hi

theorem initializeCam_cameraDown (hu : ¬ o.cameraUp) (hd : o.camera ≠ .dangling)
    (hs : o.reachesCommit → StaleFree (withCamera st)) :
    ∃ st', initializeCam o st = .ok (-1, st') ∧ CameraGone o st st' := by
  obtain ⟨st', hcreate, hg⟩ := createCamera_down hu hd hs
  refine ⟨st', ?_, hg⟩
  unfold initializeCam failWith
  rw [if_neg hi, hcreate]
  simp only [bind, Except.bind]
  rw [if_pos (by decide), destroyCamera_none hg.camera]

theorem initializeCam_cameraStops {e : Stop} (h : createCamera o st = .error e) :
    initializeCam o st = .error e := by
  unfold initializeCam
  rw [if_neg hi, h]
  rfl

section CameraUp

variable (hu : o.cameraUp) (hs : StaleFree (withCamera st))

include hu hs

theorem initializeCam_encoderStops {e : Stop}
    (h : createEncoder o (cameraMade o st) = .error e) : initializeCam o st = .error e := by
  unfold initializeCam
  rw [if_neg hi, createCamera_up hu hs]
  simp only [bind, Except.bind, h, ne_eq, not_true_eq_false, if_false]

theorem initializeCam_encoderDown {st₁ : State}
    (h : createEncoder o (cameraMade o st) = .ok (-1, st₁))
    (hg : EncoderGone o (cameraMade o st) st₁) :
    ∃ d, initializeCam o st = .ok (-1, { st₁ with
      ptr := { st₁.ptr with camera := none }
      res := st₁.res.destroyComponent o.destroyCamera st.res.next
      dev := d }) := by
  have hc : st₁.ptr.camera = some st.res.next := hg.camera
  have hm : st.res.next ∈ st₁.res.components := by
    rw [hg.components]
    cases o.destroyEncoder <;> simp [cameraMade]
  have hfail : initializeCam o st = failWith (destroyCamera o) st₁ := by
    unfold initializeCam
    rw [if_neg hi, createCamera_up hu hs]
    simp only [bind, Except.bind, h, ne_eq, not_true_eq_false, if_false]
    rw [if_pos (by decide)]
  exact ⟨_, hfail.trans (failWith_destroyCamera hc hm)⟩

theorem initializeCam_connectAll (he : o.encoderUp) :
    initializeCam o st = connectAll o (encoderMade o (cameraMade o st)) := by
  unfold initializeCam
  rw [if_neg hi, createCamera_up hu hs]
  simp only [bind, Except.bind, createEncoder_up he, ne_eq, not_true_eq_false, if_false]

end CameraUp

theorem initializeCam_up (h : o.initializes) (hs : StaleFree (withCamera st)) :
    initializeCam o st = .ok (0, initialized o st) := by
  simp only [Outcomes.initializes, Bool.and_eq_true] at h
  obtain ⟨⟨hu, he⟩, hcn⟩ := h
  rw [initializeCam_connectAll hi hu hs he, connectAll_up rfl (by simp [encoderMade, cameraMade])
    rfl (by simp [encoderMade, cameraMade]) hcn]
  rfl

theorem initializeCam_unconnected (hu : o.cameraUp) (hs : StaleFree (withCamera st)) (he : o.encoderUp)
    (hcn : ¬ o.connects) :
    ∃ st', initializeCam o st = .ok (-1, st') ∧
      Unconnected (encoderMade o (cameraMade o st)) st' := by
  rw [initializeCam_connectAll hi hu hs he]
  exact connectAll_down rfl (by simp [encoderMade, cameraMade]) rfl
    (by simp [encoderMade, cameraMade]) hcn

end Initialize

section Inversion

variable {r : Int32}

/-- Neither of the two flags has changed. -/
structure SameFlags (st st' : State) : Prop where
  isInitialized : st'.isInitialized = st.isInitialized
  changedSettings : st'.changedSettings = st.changedSettings

theorem SameFlags.trans {st₁ : State} (h : SameFlags st st₁) (h' : SameFlags st₁ st') :
    SameFlags st st' where
  isInitialized := h'.isInitialized.trans h.isInitialized
  changedSettings := h'.changedSettings.trans h.changedSettings

/-- A destruction says nothing about them. -/
theorem destroyCamera_inv (h : destroyCamera o st = .ok st') :
    st'.ptr.camera = none ∧ SameFlags st st' := by
  unfold destroyCamera at h
  split at h
  · cases h
    exact ⟨‹_›, rfl, rfl⟩
  · cases hc : component st.ptr.camera st.res with
    | error e => simp [hc, bind, Except.bind] at h
    | ok c =>
      simp only [hc, bind, Except.bind, Except.ok.injEq] at h
      rw [← h]
      exact ⟨rfl, rfl, rfl⟩

theorem destroyEncoderPool_inv {b : Bool} (h : destroyEncoderPool b st = .ok st') :
    SameFlags st st' := by
  unfold destroyEncoderPool at h
  split at h
  · cases h
    exact ⟨rfl, rfl⟩
  · cases hc : component st.ptr.encoder st.res with
    | error e => simp [hc, bind, Except.bind] at h
    | ok e =>
      cases hp : pool st.ptr.encoderPool st.res with
      | error e => cases b <;> simp [hc, hp, bind, Except.bind] at h
      | ok p =>
        cases b <;> simp [hc, hp, bind, Except.bind] at h
        rw [← h]
        exact ⟨rfl, rfl⟩

theorem destroyEncoder_inv {b : Bool} (h : destroyEncoder o b st = .ok st') :
    SameFlags st st' := by
  unfold destroyEncoder at h
  cases hp : destroyEncoderPool b st with
  | error e => simp [hp, bind, Except.bind] at h
  | ok st₁ =>
    refine (destroyEncoderPool_inv hp).trans ?_
    simp only [hp, bind, Except.bind] at h
    split at h
    · cases h
      exact ⟨rfl, rfl⟩
    · cases hc : component st₁.ptr.encoder st₁.res with
      | error e => simp [hc] at h
      | ok e =>
        simp only [hc, Except.ok.injEq] at h
        rw [← h]
        exact ⟨rfl, rfl⟩

theorem failWith_inv {cleanUp : State → Except Stop State}
    (h : failWith cleanUp st = .ok (r, st')) : r = -1 ∧ cleanUp st = .ok st' := by
  unfold failWith at h
  cases hc : cleanUp st with
  | error e => simp [hc, bind, Except.bind] at h
  | ok st₁ =>
    simp only [hc, bind, Except.bind, Except.ok.injEq, Prod.mk.injEq] at h
    exact ⟨h.1.symm, congrArg _ h.2⟩

theorem createCamera_inv (h : createCamera o st = .ok (r, st')) :
    o.cameraUp ∧ r = 0 ∧ st' = cameraMade o st ∧ StaleFree (withCamera st) ∨
      ¬ o.cameraUp ∧ r = -1 ∧ st'.isInitialized = st.isInitialized := by
  by_cases hs : o.reachesCommit → StaleFree (withCamera st)
  swap
  · obtain ⟨hr, hs⟩ := Classical.not_imp.mp hs
    cases h.symm.trans (createCamera_stale hr hs)
  by_cases hu : o.cameraUp
  · have hs' := hs (Outcomes.reachesCommit_of_cameraUp hu)
    cases h.symm.trans (createCamera_up hu hs')
    exact .inl ⟨hu, rfl, rfl, hs'⟩
  by_cases hd : o.camera = .dangling
  · unfold createCamera at h
    simp only [hd, ne_eq, reduceCtorEq, not_false_eq_true, if_true] at h
    obtain ⟨rfl, hdestroy⟩ := failWith_inv h
    have hsame := (destroyCamera_inv hdestroy).2.isInitialized
    exact .inr ⟨hu, rfl, hsame⟩
  · obtain ⟨st'', h', hg⟩ := createCamera_down hu hd hs
    cases h.symm.trans h'
    exact .inr ⟨hu, rfl, hg.isInitialized⟩

theorem createEncoder_inv (h : createEncoder o st = .ok (r, st')) :
    o.encoderUp ∧ r = 0 ∧ st' = encoderMade o st ∨ r = -1 ∧ SameFlags st st' := by
  by_cases hu : o.encoderUp
  · cases h.symm.trans (createEncoder_up hu)
    exact .inl ⟨hu, rfl, rfl⟩
  refine .inr ?_
  -- Every way out but the last is a clean-up.
  have hfail : ∀ {st₁ : State}, failWith (destroyEncoder o o.encoderOutputs) st₁ = .ok (r, st') →
      SameFlags st st₁ → r = -1 ∧ SameFlags st st' := by
    intro st₁ hf h₁
    obtain ⟨rfl, hdestroy⟩ := failWith_inv hf
    exact ⟨rfl, h₁.trans (destroyEncoder_inv hdestroy)⟩
  by_cases hcr : o.encoder = .created
  swap
  · unfold createEncoder at h
    simp only [ne_eq, hcr, not_false_eq_true, if_true] at h
    exact hfail h ⟨rfl, rfl⟩
  rw [createEncoder_created hcr] at h
  unfold setUpEncoder at h
  split at h
  · exact hfail h ⟨rfl, rfl⟩
  rename_i hports
  simp only at h
  split at h
  · exact hfail h ⟨rfl, rfl⟩
  rename_i hcommit
  split at h
  · exact hfail h ⟨rfl, rfl⟩
  rename_i hen
  split at h
  · exact hfail h ⟨rfl, rfl⟩
  rename_i hpool
  refine absurd ?_ hu
  simp only [Bool.or_eq_true, Bool.not_eq_true', not_or, Bool.not_eq_false] at hports
  simp only [Bool.not_eq_true', Bool.not_eq_false] at hcommit hen hpool
  simp [Outcomes.encoderUp, Outcomes.encoderReady, hcr, hports, hcommit, hen, hpool]

/-- What is left where `initialize` reports a failure: a null camera, or with nothing but the
connection failed everything. -/
structure InitFailed (o : Outcomes) (st st' : State) : Prop where
  isInitialized : ¬ st'.isInitialized
  changedSettings : o.cameraUp → st'.changedSettings = false
  camera : st'.ptr.camera = none ∨
    o.cameraUp ∧ Unconnected (encoderMade o (cameraMade o st)) st'

/-- **How an `initialize` that returns ends.** -/
theorem initializeCam_inv (hi : ¬ st.isInitialized) (h : initializeCam o st = .ok (r, st')) :
    o.initializes ∧ r = 0 ∧ st' = initialized o st ∨ r = -1 ∧ InitFailed o st st' := by
  have hfail : ∀ {st₁ : State}, failWith (destroyCamera o) st₁ = .ok (r, st') →
      st₁.isInitialized = st.isInitialized → (o.cameraUp → st₁.changedSettings = false) →
      r = -1 ∧ InitFailed o st st' := by
    intro st₁ hf h₁ hch
    obtain ⟨rfl, hdestroy⟩ := failWith_inv hf
    obtain ⟨hc, hsame⟩ := destroyCamera_inv hdestroy
    exact ⟨rfl, hsame.isInitialized.trans h₁ ▸ hi, fun hu => hsame.changedSettings.trans (hch hu),
      .inl hc⟩
  have h₀ := h
  unfold initializeCam at h
  rw [if_neg hi] at h
  cases hc : createCamera o st with
  | error e => simp [hc, bind, Except.bind] at h
  | ok x =>
    obtain ⟨r₁, st₁⟩ := x
    simp only [hc, bind, Except.bind] at h
    rcases createCamera_inv hc with ⟨hu, rfl, rfl, hs⟩ | ⟨hu, rfl, h₁⟩
    swap
    · rw [if_pos (by decide)] at h
      exact .inr (hfail h h₁ fun hu' => absurd hu' hu)
    cases he : createEncoder o (cameraMade o st) with
    | error e => simp [he] at h
    | ok y =>
      obtain ⟨r₂, st₂⟩ := y
      simp only [he, ne_eq, not_true_eq_false, if_false] at h
      rcases createEncoder_inv he with ⟨heu, rfl, rfl⟩ | ⟨rfl, h₂⟩
      swap
      · rw [if_pos (by decide)] at h
        exact .inr (hfail h h₂.isInitialized fun _ => h₂.changedSettings)
      by_cases hcn : o.connects
      · have hall : o.initializes := by simp [Outcomes.initializes, hu, heu, hcn]
        cases h₀.symm.trans (initializeCam_up hi hall hs)
        exact .inl ⟨hall, rfl, rfl⟩
      · obtain ⟨st'', h', hg⟩ := initializeCam_unconnected hi hu hs heu hcn
        cases h₀.symm.trans h'
        exact .inr ⟨rfl, hg.isInitialized ▸ hi, fun _ => hg.changedSettings, .inr ⟨hu, hg⟩⟩

end Inversion

/-! ## An initialised object -/

/-- The pointers of an initialised object lead to its live components, to the pool of the
encoder's output port and to the connection. -/
structure Wired (c e p k : Nat) (st : State) : Prop where
  camera : st.ptr.camera = some c
  encoder : st.ptr.encoder = some e
  pool : st.ptr.encoderPool = some p
  connection : st.ptr.encoderConnection = some k
  still : st.ptr.cameraStillPort = some ⟨c, .output 2⟩
  output : st.ptr.encoderOutputPort = some ⟨e, .output 0⟩
  ne : c ≠ e
  cameraLive : c ∈ st.res.components
  encoderLive : e ∈ st.res.components
  poolLive : (p, ⟨e, .output 0⟩) ∈ st.res.pools
  connectionLive : k ∈ st.res.connections

theorem wired_initialized : Wired st.res.next (st.res.next + 2) (st.res.next + 3)
    (st.res.next + 4) (initialized o st) := by
  constructor <;> simp [initialized, encoderMade, cameraMade]

namespace Wired

variable {c e p k : Nat} (h : Wired c e p k st)

include h

theorem staleFree : StaleFree st := by
  intro _ q hq
  rw [h.output] at hq
  cases hq
  exact h.encoderLive

/-- A state with the same pointers and resources is wired the same. -/
theorem congr {st' : State} (hp : st'.ptr = st.ptr) (hr : st'.res = st.res) :
    Wired c e p k st' := by
  constructor <;> simp [hp, hr, h.camera, h.encoder, h.pool, h.connection, h.still, h.output,
    h.ne, h.cameraLive, h.encoderLive, h.poolLive, h.connectionLive]

theorem portOf_output : portOf st.ptr.encoderOutputPort st.res = .ok ⟨e, .output 0⟩ := by
  rw [h.output]
  exact portOf_some h.encoderLive

theorem release_eq (hi : st.isInitialized) : ∃ d, release o st = .ok { st with
    ptr := { st.ptr with camera := none, encoder := none }
    isInitialized := false
    res := (((st.res.destroyConnection o.destroyConnection k).destroyPool ⟨e, .output 0⟩
      p).destroyComponent o.destroyEncoder e).destroyComponent o.destroyCamera c
    dev := d } := by
  let st₁ : State := { st with res := st.res.destroyConnection o.destroyConnection k }
  let st₂ : State := { st₁ with res := st₁.res.destroyPool ⟨e, .output 0⟩ p }
  let st₃ : State := { st₂ with
    ptr := { st₂.ptr with encoder := none }
    res := st₂.res.destroyComponent o.destroyEncoder e
    dev := if o.destroyEncoder then st₂.dev.disable e else st₂.dev }
  have hk : Camera.connection st.ptr.encoderConnection st.res = .ok k := by
    rw [h.connection]
    exact if_pos h.connectionLive
  have hem : e ∈ st₁.res.components := by simpa [st₁] using h.encoderLive
  have hpm : p ∈ st₁.res.pools.map Prod.fst := by
    simpa [st₁] using ⟨_, h.poolLive⟩
  have hpool : destroyEncoderPool true st₁ = .ok st₂ :=
    destroyEncoderPool_some h.pool h.encoder hem hpm
  have henc : destroyEncoder o true st₁ = .ok st₃ := destroyEncoder_of_pool hpool h.encoder hem
  have hcm : c ∈ st₃.res.components := by
    have hcl : c ∈ st₂.res.components := by
      simpa [st₁, st₂, Resources.destroyPool] using h.cameraLive
    simp only [st₃, Resources.destroyComponent_components]
    split
    · exact (List.mem_erase_of_ne h.ne).mpr hcl
    · exact hcl
  have hc : st₃.ptr.camera = some c := h.camera
  refine ⟨if o.destroyCamera then st₃.dev.disable c else st₃.dev, ?_⟩
  unfold release
  rw [if_neg (by simp [hi]), hk]
  show (do
    let st ← destroyEncoder o true st₁
    let st ← destroyCamera o st
    .ok { st with isInitialized := false }) = _
  rw [henc]
  show (do
    let st ← destroyCamera o st₃
    .ok { st with isInitialized := false }) = _
  rw [destroyCamera_some hc hcm]
  rfl

/-! ## Capturing with it -/

/-- `startCapture` changes the ports, and what they have accepted, only. -/
theorem startCapture_eq :
    ∃ r d, startCapture o st = .ok (r, { st with changedSettings := false, dev := d }) ∧
      (r = 0 ∨ r = -1) ∧ d.committed = (commitDevice o c st).committed ∧
      ∀ q a, a ≠ .capture → d.accepted q a = (commitDevice o c st).accepted q a := by
  unfold startCapture
  rw [commitParameters_eq h.camera h.cameraLive h.staleFree]
  simp only [bind, Except.bind, h.portOf_output]
  split
  · exact ⟨_, _, rfl, .inr rfl, rfl, fun _ _ _ => rfl⟩
  split
  · exact ⟨_, _, rfl, .inr rfl, rfl, fun _ _ _ => rfl⟩
  have hp : Camera.pool st.ptr.encoderPool st.res = .ok p := by
    rw [h.pool]
    exact if_pos (List.mem_map_of_mem h.poolLive)
  have hs : portOf st.ptr.cameraStillPort st.res = .ok ⟨c, .output 2⟩ := by
    rw [h.still]
    exact portOf_some h.cameraLive
  simp only [hp, hs]
  refine ⟨_, _, rfl, ?_, rfl, ?_⟩
  · split <;> simp
  · intro q a ha
    cases hok : o.parameter (.output 2) .capture <;> simp [Accepted.set, Device.setPort, ha]

end Wired

theorem commitDevice_setPort (o : Outcomes) (c : Nat) (q : PortId) (p : Port) (st : State) :
    commitDevice o c { st with dev := st.dev.setPort q p } =
      (commitDevice o c st).setPort q p := by
  unfold commitDevice commitEncoding
  split
  · cases st.ptr.encoderOutputPort <;> rfl
  · rfl

namespace Wired

variable {c e p k : Nat} (h : Wired c e p k st)

include h

/-- **What leads up to the wait of `takePicture`** goes through no pointer it may not. -/
theorem beginCapture_eq (data : Nat → UInt8) (length : UInt32) :
    ∃ r d, beginCapture o data length st = .ok (r, { st with changedSettings := false, dev := d }) ∧
      (r = 0 ∨ r = -1) ∧ d.committed = (commitDevice o c st).committed ∧
      ∀ q a, a ≠ .capture → d.accepted q a = (commitDevice o c st).accepted q a := by
  let st₁ : State := { st with
    dev := st.dev.setPort ⟨e, .output 0⟩
      { st.dev.port ⟨e, .output 0⟩ with userdata := some (.start data length) } }
  have h₁ : Wired c e p k st₁ := h.congr rfl rfl
  obtain ⟨r, d, hstart, hr, hcommit, hacc⟩ := h₁.startCapture_eq (o := o)
  rw [commitDevice_setPort] at hcommit hacc
  refine ⟨r, d, ?_, hr, hcommit, hacc⟩
  unfold beginCapture
  rw [h.portOf_output]
  exact hstart

theorem stopCapture_eq : ∃ d, stopCapture o st = .ok { st with dev := d } ∧
    d.accepted = st.dev.accepted ∧ d.committed = st.dev.committed := by
  unfold stopCapture
  simp only [h.portOf_output, bind, Except.bind]
  split
  · exact ⟨_, rfl, rfl, rfl⟩
  · exact ⟨_, rfl, rfl, rfl⟩

/-- The wait and what follows it: the wait may never end. -/
theorem endCapture_eq : endCapture o st = .error .waits ∨
    ∃ x d, endCapture o st = .ok ((0, x), { st with dev := d }) ∧
      d.accepted = st.dev.accepted ∧ d.committed = st.dev.committed := by
  unfold endCapture
  rw [h.portOf_output]
  simp only [bind, Except.bind]
  cases hu : (deliver o.delivered (st.dev.port ⟨e, .output 0⟩)).userdata with
  | none => exact .inl rfl
  | some u =>
    simp only
    split
    · exact .inl rfl
    · let st₁ : State := { st with
        dev := st.dev.setPort ⟨e, .output 0⟩
          (deliver o.delivered (st.dev.port ⟨e, .output 0⟩)) }
      have h₁ : Wired c e p k st₁ := h.congr rfl rfl
      obtain ⟨d, hstop, hacc, hcommit⟩ := h₁.stopCapture_eq (o := o)
      exact .inr ⟨(u.data, u.offset), d, by rw [hstop], hacc, hcommit⟩

end Wired

/-! ## Steps of a run -/

section Exec

variable {r : Int32} {e : Stop}

theorem exec_initializeCam (h : initializeCam o st = .ok (r, st')) :
    machine.exec st (.initializeCam o) = .ok (st', r) := by
  simp only [machine, h, bind, Except.bind]

theorem exec_initializeCam_error (h : initializeCam o st = .error e) :
    machine.exec st (.initializeCam o) = .error e := by
  simp only [machine, h, bind, Except.bind]

theorem exec_openCam (h : initializeCam o st = .ok (r, st')) :
    machine.exec st (.openCam o) = .ok (st', if r = 0 then 0 else -1) := by
  simp only [machine, openCam, h, bind, Except.bind, decide_eq_true_eq]

theorem exec_openCam_error (h : initializeCam o st = .error e) :
    machine.exec st (.openCam o) = .error e := by
  simp only [machine, openCam, h, bind, Except.bind]

theorem exec_takePicture {data data' : Nat → UInt8} {length length' : UInt32}
    (h : takePictureOf o data length st = .ok ((r, data', length'), st')) :
    machine.exec st (.takePicture o data length) = .ok (st', r) := by
  simp only [machine, h, bind, Except.bind]

theorem exec_takePicture_error {data : Nat → UInt8} {length : UInt32}
    (h : takePictureOf o data length st = .error e) :
    machine.exec st (.takePicture o data length) = .error e := by
  simp only [machine, h, bind, Except.bind]

theorem exec_release (h : release o st = .ok st') :
    machine.exec st (.release o) = .ok (st', 0) := by
  simp only [machine, h, bind, Except.bind]

theorem exec_initializeCam_inv (h : machine.exec st (.initializeCam o) = .ok (st', r)) :
    initializeCam o st = .ok (r, st') := by
  cases hi : initializeCam o st with
  | error x => cases h.symm.trans (exec_initializeCam_error hi)
  | ok x => cases h.symm.trans (exec_initializeCam hi); rfl

theorem exec_openCam_inv (h : machine.exec st (.openCam o) = .ok (st', r)) :
    ∃ v, initializeCam o st = .ok (v, st') := by
  cases hi : initializeCam o st with
  | error x => simp [machine, openCam, hi, bind, Except.bind] at h
  | ok x =>
    cases h.symm.trans (exec_openCam hi)
    exact ⟨x.1, rfl⟩

theorem exec_takePicture_inv {data : Nat → UInt8} {length : UInt32}
    (h : machine.exec st (.takePicture o data length) = .ok (st', r)) :
    ∃ x, takePictureOf o data length st = .ok (x, st') := by
  cases ht : takePictureOf o data length st with
  | error x => cases h.symm.trans (exec_takePicture_error ht)
  | ok x =>
    cases h.symm.trans (exec_takePicture ht)
    exact ⟨x.1, rfl⟩

theorem release_again (hi : ¬ st.isInitialized) : release o st = .ok st := by
  unfold release
  rw [if_pos (by simpa using hi)]

end Exec

end Camerasp.Camera
