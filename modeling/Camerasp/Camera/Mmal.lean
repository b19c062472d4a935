import Camerasp.Camera.Callback
import Camerasp.Camera.Settings

/-!
# MMAL as `cam_still` meets it (`include/mmal`)

What the MMAL calls of one `cam_still` have made, in two records: `Resources` holds the live
components, pools and connections by number, `Device` the state of the ports and what they have
accepted. Each call is a function of its outcome; which outcomes a call has, and what it leaves
behind when it fails, is read off `core/mmal_component.c`, `core/mmal_port.c`, `util/mmal_util.c`
and `util/mmal_connection.c`.

* `mmal_component_create` stores a null pointer when it fails, except where the lock of the new
  component cannot be made: then the pointer to the freed component stays (`Created.dangling`).
* `mmal_connection_create` frees the connection when it fails, except where the ports cannot be
  connected: then the connection stays and the pointer is set (`Connected.live`).
* `mmal_component_destroy` disables the component's ports. A component counts as destroyed from
  then on, although MMAL keeps the memory while buffers of its pools are allocated.
-/

namespace Camerasp.Camera

/-- A port by its place in its component. -/
inductive PortKind
  | control
  | input (i : Nat)
  | output (i : Nat)
  deriving DecidableEq

structure PortId where
  component : Nat
  kind : PortKind
  deriving DecidableEq

/-- The parameters that `cam_still.cpp` sets. -/
inductive Param
  | sharpness | contrast | brightness | jpegQFactor | saturation | iso | exposureMode
  | expMeteringMode | awbMode | imageEffect | rotation | mirror | videoStabilisation
  | exposureComp | colourEffect | inputCrop | cameraConfig | capture
  deriving DecidableEq

/-- What is sent with a parameter. -/
inductive Value
  | rational (num den : Int32)
  | uint32 (v : UInt32)
  | int32 (v : Int32)
  | boolean (v : Bool)
  | exposureMode (v : MmalExposureMode)
  | exposureMeteringMode (v : MmalExposureMeteringMode)
  | awbMode (v : MmalAwbMode)
  | imageFx (v : MmalImageFx)
  | mirror (v : MmalMirror)
  | colourfx (enable : Bool) (u v : UInt32)
  | rect (x y width height : Int32)
  | cameraConfig (maxStillsW maxStillsH : UInt32)
  deriving DecidableEq

/-- The part of `MMAL_ES_FORMAT_T` that the code writes. -/
structure Format where
  encoding : UInt32
  width : UInt32
  height : UInt32
  deriving DecidableEq

/-- The value each port has last accepted for each parameter. -/
abbrev Accepted := PortId → Param → Option Value

/-- What is live. Numbers from `next` on have not been given out. -/
structure Resources where
  next : Nat
  components : List Nat
  pools : List (Nat × PortId)
  connections : List Nat
  /-- pools handed to `mmal_port_pool_destroy` with another port than their own -/
  wrongPools : Nat

/-- The ports' own state. -/
structure Device where
  port : PortId → Port
  format : PortId → Format
  committed : PortId → Option Format
  accepted : Accepted

/-- A port nobody has used. -/
def Port.fresh : Port := ⟨none, false, 0, 0⟩

def Resources.init : Resources := ⟨0, [], [], [], 0⟩

def Device.init : Device := ⟨fun _ => .fresh, fun _ => ⟨0, 0, 0⟩, fun _ => none, fun _ _ => none⟩

/-- How `mmal_component_create` ends. -/
inductive Created
  | created
  | null
  | dangling
  deriving DecidableEq

/-- How `mmal_connection_create` ends. -/
inductive Connected
  | connected
  | freed
  | live
  deriving DecidableEq

/-- Why a call of the object never returns: it goes through a null pointer or to something
destroyed, or it waits for ever. -/
inductive Stop
  | null
  | destroyed
  | waits
  deriving DecidableEq

/-- One of the two that break memory. -/
def Stop.isFault : Stop → Bool
  | .null | .destroyed => true
  | .waits => false

namespace Resources

/-- `mmal_component_create`: the pointer it stores, and what is live then. -/
def createComponent (o : Created) (w : Resources) : Option Nat × Resources :=
  match o with
  | .null => (none, w)
  | .dangling => (some w.next, { w with next := w.next + 1 })
  | .created => (some w.next, { w with next := w.next + 1, components := w.next :: w.components })

/-- `mmal_component_destroy` of a live component. -/
def destroyComponent (ok : Bool) (c : Nat) (w : Resources) : Resources :=
  if ok then { w with components := w.components.erase c } else w

section

variable (ok : Bool) (c : Nat) (w : Resources)

@[simp] theorem destroyComponent_pools : (w.destroyComponent ok c).pools = w.pools := by
  cases ok <;> rfl

@[simp] theorem destroyComponent_connections :
    (w.destroyComponent ok c).connections = w.connections := by
  cases ok <;> rfl

@[simp] theorem destroyComponent_wrongPools :
    (w.destroyComponent ok c).wrongPools = w.wrongPools := by
  cases ok <;> rfl

theorem destroyComponent_components :
    (w.destroyComponent ok c).components = if ok then w.components.erase c else w.components := by
  cases ok <;> rfl

end

/-- `mmal_port_pool_create`. -/
def createPool (ok : Bool) (q : PortId) (w : Resources) : Option Nat × Resources :=
  if ok then (some w.next, { w with next := w.next + 1, pools := (w.next, q) :: w.pools })
  else (none, w)

/-- `mmal_port_pool_destroy(q, pool)` of a live pool. -/
def destroyPool (q : PortId) (pool : Nat) (w : Resources) : Resources :=
  { w with
    pools := w.pools.filter (·.1 ≠ pool)
    wrongPools := if (pool, q) ∈ w.pools then w.wrongPools else w.wrongPools + 1 }

/-- `mmal_connection_create`: whether it succeeds, what it leaves in `old`'s place, what is live. -/
def createConnection (o : Connected) (old : Option Nat) (w : Resources) :
    Bool × Option Nat × Resources :=
  match o with
  | .freed => (false, old, w)
  | .live =>
    (false, some w.next, { w with next := w.next + 1, connections := w.next :: w.connections })
  | .connected =>
    (true, some w.next, { w with next := w.next + 1, connections := w.next :: w.connections })

/-- `mmal_connection_destroy` of a live connection. -/
def destroyConnection (ok : Bool) (k : Nat) (w : Resources) : Resources :=
  if ok then { w with connections := w.connections.erase k } else w

section

variable (ok : Bool) (k : Nat) (w : Resources)

@[simp] theorem destroyConnection_next : (w.destroyConnection ok k).next = w.next := by
  cases ok <;> rfl

@[simp] theorem destroyConnection_components :
    (w.destroyConnection ok k).components = w.components := by
  cases ok <;> rfl

@[simp] theorem destroyConnection_pools : (w.destroyConnection ok k).pools = w.pools := by
  cases ok <;> rfl

@[simp] theorem destroyConnection_wrongPools :
    (w.destroyConnection ok k).wrongPools = w.wrongPools := by
  cases ok <;> rfl

end

/-! ### Numbers handed out -/

/-- What is live has a number handed out before. -/
structure Numbered (w : Resources) : Prop where
  components : ∀ c ∈ w.components, c < w.next
  pools : ∀ x ∈ w.pools, x.1 < w.next

namespace Numbered

variable {w : Resources} (h : w.Numbered)

include h

theorem component :
    Numbered { w with next := w.next + 1, components := w.next :: w.components } where
  components := List.forall_mem_cons.mpr
    ⟨Nat.lt_succ_self _, fun c hc => Nat.lt_succ_of_lt (h.components c hc)⟩
  pools := fun x hx => Nat.lt_succ_of_lt (h.pools x hx)

theorem pool (q : PortId) :
    Numbered { w with next := w.next + 1, pools := (w.next, q) :: w.pools } where
  components := fun c hc => Nat.lt_succ_of_lt (h.components c hc)
  pools := List.forall_mem_cons.mpr
    ⟨Nat.lt_succ_self _, fun x hx => Nat.lt_succ_of_lt (h.pools x hx)⟩

theorem connection :
    Numbered { w with next := w.next + 1, connections := w.next :: w.connections } where
  components := fun c hc => Nat.lt_succ_of_lt (h.components c hc)
  pools := fun x hx => Nat.lt_succ_of_lt (h.pools x hx)

theorem destroyComponent (ok : Bool) (c : Nat) : (w.destroyComponent ok c).Numbered := by
  cases ok with
  | false => exact h
  | true => exact ⟨fun c' hc => h.components c' (List.mem_of_mem_erase hc), h.pools⟩

theorem destroyPool (q : PortId) (p : Nat) : (w.destroyPool q p).Numbered where
  components := h.components
  pools := fun x hx => h.pools x (List.mem_filter.mp hx).1

theorem destroyConnection (ok : Bool) (k : Nat) : (w.destroyConnection ok k).Numbered := by
  cases ok with
  | false => exact h
  | true => exact ⟨h.components, h.pools⟩

end Numbered

end Resources

/-- `mmal_port_parameter_set` and its typed variants. -/
def Accepted.set (ok : Bool) (q : PortId) (p : Param) (v : Value) (a : Accepted) : Accepted :=
  if ok then fun q' p' => if q' = q ∧ p' = p then some v else a q' p' else a

theorem Accepted.set_apply (ok : Bool) (q q' : PortId) (p p' : Param) (v : Value) (a : Accepted) :
    a.set ok q p v q' p' = if ok ∧ q' = q ∧ p' = p then some v else a q' p' := by
  cases ok <;> simp [Accepted.set]

namespace Device

/-- The ports of a new component. -/
def reset (c : Nat) (d : Device) : Device where
  port q := if q.component = c then .fresh else d.port q
  format q := if q.component = c then ⟨0, 0, 0⟩ else d.format q
  committed q := if q.component = c then none else d.committed q
  accepted q := if q.component = c then fun _ => none else d.accepted q

/-- The ports of a component that is destroyed. -/
def disable (c : Nat) (d : Device) : Device :=
  { d with port := fun q => if q.component = c then { d.port q with isEnabled := false } else d.port q }

def setPort (q : PortId) (p : Port) (d : Device) : Device :=
  { d with port := Function.update d.port q p }

/-- Writes a port's format and commits it (`mmal_port_format_commit`). -/
def commitFormat (ok : Bool) (q : PortId) (f : Format) (d : Device) : Device :=
  { d with
    format := Function.update d.format q f
    committed := if ok then Function.update d.committed q (some f) else d.committed }

end Device

end Camerasp.Camera
