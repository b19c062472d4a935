import Camerasp.Lib.Machine
import Mathlib.Data.List.Nodup
import Mathlib.Logic.Function.Basic
import Mathlib.Logic.Relation
import Mathlib.Order.Nat

/-!
# The connections of the server (`http_server.hpp`, `comms/server.hpp`, `comms/connection.hpp`)

`comms::server` owns its connections in `connections_`; `http_server` has an `http_connection` for
each in `http_connections_`, whose keys are the addresses of the former. An event is signalled from
a `comms::connection` through `comms::server` to `http_server`, which calls a handler; the handler
may send on its connection or disconnect it. With plain TCP `shutdown` signals `DISCONNECTED` before
it returns, so that a connection leaves both collections in the middle of whatever called it.

A connection is its address here, which is used again once the connection has been destroyed. Which
operation completes next, and how, is up to the inputs, and so is what the handlers do with their
connection. What the disconnected handler does is a parameter of the server; that of `main` does
nothing. What the callbacks of a destroyed connection's operations find is an expired pointer, and
they return. The transmit queue, which nothing fills, is left out, and so are failures of `accept`,
which change nothing.

A premise of all this is that callbacks run one at a time, as they do with one thread in the
`io_service`. `main` runs it in three, without a strand.

`Inv` is the invariant of all runs, and `phase` reads off the calls how far a connection has come.

Results:
* `run_inOrder`: **the handlers of a connection are called in order**: the one for its start, those
  for its requests and its sent messages, the one for its end.
* `run_reads_writes`: no connection has two reads or two writes in progress.
* `run_error_iff`: **a run goes through a bad pointer exactly when `shutdown` is called while a
  connection has `transmitting_` down**: `disconnect` then erases the element of
  `http_connections_` that the loop is at. Here the disconnected handler is one that sends at most.
* `shutdown_stays_open`: a `shutdown` that does not, never closes the server.
* `receives_nothing`, `sends_nothing`: a read or write that fails without a disconnect is the last
  one of its connection.
-/

namespace Camerasp.Http

open Camerasp.Lib (Machine)

/-! ## One connection -/

/-- `comms::connection`. `reads` and `writes` count the operations in progress. -/
structure Tcp where
  receiving : Bool
  transmitting : Bool
  connected : Bool
  disconnectPending : Bool
  reads : Nat
  writes : Nat
  deriving DecidableEq

namespace Tcp

/-- The constructor. -/
def init : Tcp := ⟨false, false, false, false, 0, 0⟩

def enableReception (t : Tcp) : Tcp :=
  if t.receiving then t else { t with receiving := true, reads := t.reads + 1 }

def writeData (t : Tcp) : Tcp := if t.connected then { t with writes := t.writes + 1 } else t

/-- `send_data`. -/
def sendData (t : Tcp) : Tcp :=
  if t.transmitting then t else { t.writeData with transmitting := t.connected }

/-- `handshake_callback`, up to the event. -/
def handshake (t : Tcp) : Tcp :=
  ({ t with connected := true, receiving := false } : Tcp).enableReception

end Tcp

/-- What a handler does with its connection. -/
inductive Action
  | send (keepAlive : Bool)
  | disconnect
  deriving DecidableEq

/-- What happens, as the handlers see it: they are called, the callback they were called from
returns, and `close` or `shutdown` of the server drops all `http_connection`s. -/
inductive Call
  | connected (id : Nat)
  | request (id : Nat)
  | sent (id : Nat)
  | disconnected (id : Nat)
  | returned
  | cleared
  deriving DecidableEq

/-- Why a call goes wrong: `++` of an iterator to an erased element, a member function called
through an expired pointer, or `disconnected_handler` called by its own handler, so that it erases
the element twice. -/
inductive Fault
  | erased
  | expired
  | reentered
  deriving DecidableEq

/-! ## The server -/

/-- `http_server` with its `comms::server`. `calls` only records what happens. -/
structure HttpServer where
  /-- an acceptor is open -/
  accepting : Bool
  connections : List Nat
  httpConnections : List Nat
  tcp : Nat → Tcp
  shuttingDown : Bool
  /-- what the disconnected handler does with its connection, after these calls -/
  onDisconnected : List Call → List Action
  /-- `disconnected_handler` has been called by its own handler -/
  reentered : Bool
  calls : List Call

namespace HttpServer

/-- After `accept_connections`. -/
def init (onDisconnected : List Call → List Action) : HttpServer :=
  ⟨true, [], [], fun _ => .init, false, onDisconnected, false, []⟩

def call (s : HttpServer) (c : Call) : HttpServer := { s with calls := s.calls ++ [c] }

def update (s : HttpServer) (id : Nat) (f : Tcp → Tcp) : HttpServer :=
  { s with tcp := Function.update s.tcp id (f (s.tcp id)) }

/-- `close` of `comms::server`. -/
def closeServer (s : HttpServer) : HttpServer := { s with accepting := false, connections := [] }

/-- `send` of `http_connection`, and `disconnect`. Both may end in `shutdown` of the connection. -/
def actBy (shutdown : HttpServer → HttpServer) (s : HttpServer) (id : Nat) : Action → HttpServer
  | .send keepAlive =>
    let s := s.update id Tcp.sendData
    if keepAlive then s else shutdown s
  | .disconnect =>
    if (s.tcp id).transmitting then s.update id fun t => { t with disconnectPending := true }
    else shutdown s

def reenter (s : HttpServer) : HttpServer := { s with reentered := true }

/-- The disconnected handler is called. Its connection is in `http_connections_` still, so that its
`shutdown` calls `disconnected_handler` again. -/
def notifyDisconnected (s : HttpServer) (id : Nat) : HttpServer :=
  let s := s.call (.disconnected id)
  (s.onDisconnected s.calls).foldl (fun s a => s.actBy reenter id a) s

/-- `disconnected_handler`. -/
def disconnectedHandler (s : HttpServer) (id : Nat) : HttpServer :=
  let s := s.notifyDisconnected id
  let s := { s with httpConnections := s.httpConnections.erase id }
  if s.shuttingDown && s.httpConnections.isEmpty then s.closeServer else s

/-- The event `DISCONNECTED`: `event_handler` of both servers. -/
def disconnected (s : HttpServer) (id : Nat) : HttpServer :=
  let s := if id ∈ s.httpConnections then s.disconnectedHandler id else s
  { s with connections := s.connections.erase id }

/-- `shutdown` of a connection: `write_callback` is called with `eof`, which is a disconnect. -/
def shutdownConnection (s : HttpServer) (id : Nat) : HttpServer := s.disconnected id

def act (s : HttpServer) (id : Nat) (a : Action) : HttpServer :=
  s.actBy (fun s => s.shutdownConnection id) id a

/-- A handler is called, and acts on its connection. -/
def handler (s : HttpServer) (id : Nat) (c : Call) (acts : List Action) : HttpServer :=
  acts.foldl (fun s a => s.act id a) (s.call c)

/-- The event `RECEIVED`: `receive_handler` reads the buffer, and for each of the requests that
it holds calls a handler. -/
def received (s : HttpServer) (id : Nat) (requests : List (List Action)) : HttpServer :=
  if id ∈ s.httpConnections then
    requests.foldl (fun s acts => s.handler id (.request id) acts) (s.update id Tcp.enableReception)
  else s

def readHandler (s : HttpServer) (id : Nat) (requests : List (List Action)) : HttpServer :=
  let s := s.update id fun t => { t with receiving := false }
  (s.received id requests).update id Tcp.enableReception

def writeHandler (s : HttpServer) (id : Nat) (acts : List Action) : HttpServer :=
  let s := s.update id fun t => { t with transmitting := false }
  if id ∈ s.httpConnections then s.handler id (.sent id) acts else s

/-- The event `CONNECTED`: `connected_handler`. -/
def connected (s : HttpServer) (id : Nat) (acts : List Action) : HttpServer :=
  if id ∈ s.httpConnections then s
  else { s with httpConnections := s.httpConnections ++ [id] }.handler id (.connected id) acts

/-- `accept_handler`. -/
def accept (s : HttpServer) (id : Nat) (acts : List Action) : HttpServer :=
  let s := (s.update id fun _ => Tcp.init.handshake).connected id acts
  { s with connections := s.connections ++ [id] }

/-- What the error code of an operation that fails is: `operation_aborted`, one that
`is_error_a_disconnect` accepts, or another. -/
inductive Failure
  | aborted
  | disconnect
  | other
  deriving DecidableEq

/-- `signal_error`, unless the operation was aborted. -/
def failed (s : HttpServer) (id : Nat) : Failure → HttpServer
  | .disconnect => s.disconnected id
  | _ => s

/-- `read_callback`. -/
def readCallback (s : HttpServer) (id : Nat) (r : Except Failure (List (List Action))) :
    HttpServer :=
  let s := s.update id fun t => { t with reads := t.reads - 1 }
  match r with
  | .ok requests => s.readHandler id requests
  | .error e => s.failed id e

/-- `write_callback`. -/
def writeCallback (s : HttpServer) (id : Nat) (r : Except Failure (List Action)) : HttpServer :=
  let s := s.update id fun t => { t with writes := t.writes - 1 }
  match r with
  | .ok acts => if (s.tcp id).disconnectPending then s.shutdownConnection id
    else s.writeHandler id acts
  | .error e => s.failed id e

/-- `http_connections_.clear()`: each `http_connection` closes its connection. -/
def clear (s : HttpServer) : Except Fault HttpServer :=
  if ∀ id ∈ s.httpConnections, id ∈ s.connections then
    .ok ({ s with httpConnections := [] }.call .cleared)
  else .error .expired

def close (s : HttpServer) : Except Fault HttpServer := do
  let s ← s.clear
  return s.closeServer

/-- The loop of `shutdown`, over the elements that are left. -/
def shutdownLoop : List Nat → HttpServer → Except Fault HttpServer
  | [], s => .ok s
  | id :: ids, s =>
    if id ∈ s.connections then
      let s := s.act id .disconnect
      if s.reentered then .error .reentered
      else if id ∈ s.httpConnections then shutdownLoop ids s else .error .erased
    else .error .expired

def shutdown (s : HttpServer) : Except Fault HttpServer :=
  if !s.shuttingDown && !s.httpConnections.isEmpty then do
    let s ← shutdownLoop s.httpConnections { s with shuttingDown := true }
    s.clear
  else s.close

/-- What happens next. -/
inductive Input
  /-- a connection is accepted, at this address -/
  | accepted (id : Nat) (acts : List Action)
  /-- a read of a connection completes -/
  | read (id : Nat) (r : Except Failure (List (List Action)))
  /-- a write of a connection completes -/
  | written (id : Nat) (r : Except Failure (List Action))
  | shutdown
  | close

/-- A callback has run. Where it has gone wrong, what the rest of it did does not count. -/
def finish (s : HttpServer) : Except Fault HttpServer :=
  if s.reentered then .error .reentered else .ok (s.call .returned)

def step (s : HttpServer) : Input → Except Fault HttpServer
  | .accepted id acts =>
    if s.accepting ∧ id ∉ s.connections then (s.accept id acts).finish else .ok s
  | .read id r =>
    if id ∈ s.connections ∧ 0 < (s.tcp id).reads then (s.readCallback id r).finish else .ok s
  | .written id r =>
    if id ∈ s.connections ∧ 0 < (s.tcp id).writes then (s.writeCallback id r).finish else .ok s
  | .shutdown => s.shutdown
  | .close => s.close

def machine : Machine HttpServer Input Unit Fault where
  exec s i := (s.step i).map fun s' => (s', ())

end HttpServer

/-! ## What each piece changes -/

namespace Tcp

variable {t t' : Tcp}

/-- What a step can do to a connection. -/
inductive Change : Tcp → Tcp → Prop
  | sendData (t : Tcp) : Change t t.sendData
  | enableReception (t : Tcp) : Change t t.enableReception
  | pend (t : Tcp) : Change t { t with disconnectPending := true }
  | readFailed {t : Tcp} (h : 0 < t.reads) : Change t { t with reads := t.reads - 1 }
  | readDone {t : Tcp} (h : 0 < t.reads) :
    Change t { t with reads := t.reads - 1, receiving := false }
  | writeFailed {t : Tcp} (h : 0 < t.writes) : Change t { t with writes := t.writes - 1 }
  | writeDone {t : Tcp} (h : 0 < t.writes) :
    Change t { t with writes := t.writes - 1, transmitting := false }

/-- Changes, one after the other. -/
abbrev Changes : Tcp → Tcp → Prop := Relation.ReflTransGen Change

end Tcp

/-- What each of them keeps, all of them do, one after the other. -/
theorem all_keep {α : Type} {r : α → α → Prop} {P : α → Prop} {a b : α}
    (hP : ∀ a b, P a → r a b → P b) (h : Relation.ReflTransGen r a b) (ha : P a) : P b := by
  induction h with
  | refl => exact ha
  | tail _ hr ih => exact hP _ _ ih hr

namespace HttpServer

open Tcp (Change Changes)

variable {s s' : HttpServer} {id j : Nat}

@[simp] theorem update_tcp_self (f : Tcp → Tcp) : (s.update id f).tcp id = f (s.tcp id) :=
  Function.update_self ..

theorem update_tcp_of_ne (f : Tcp → Tcp) (h : j ≠ id) : (s.update id f).tcp j = s.tcp j :=
  Function.update_of_ne h ..

@[simp] theorem call_httpConnections (c : Call) :
    (s.call c).httpConnections = s.httpConnections := rfl

@[simp] theorem call_tcp (c : Call) : (s.call c).tcp = s.tcp := rfl

theorem changes_update {g : Tcp → Tcp} (h : Changes (s.tcp id) (g (s.tcp id))) :
    Changes (s.tcp j) ((s.update id g).tcp j) := by
  by_cases hj : j = id
  · subst hj
    rwa [update_tcp_self]
  · rw [update_tcp_of_ne _ hj]

/-- What the disconnected handler can do to the server: no more than to its connection. -/
structure Touched (id : Nat) (s s' : HttpServer) : Prop where
  accepting : s'.accepting = s.accepting
  connections : s'.connections = s.connections
  httpConnections : s'.httpConnections = s.httpConnections
  shuttingDown : s'.shuttingDown = s.shuttingDown
  calls : s'.calls = s.calls
  tcp : ∀ j, j ≠ id → s'.tcp j = s.tcp j
  changes : ∀ j, Changes (s.tcp j) (s'.tcp j)

theorem Touched.refl (s : HttpServer) : Touched id s s :=
  ⟨rfl, rfl, rfl, rfl, rfl, fun _ _ => rfl, fun _ => .refl⟩

theorem Touched.update (h : Touched id s s') {g : Tcp → Tcp}
    (hg : Changes (s'.tcp id) (g (s'.tcp id))) : Touched id s (s'.update id g) where
  accepting := h.accepting
  connections := h.connections
  httpConnections := h.httpConnections
  shuttingDown := h.shuttingDown
  calls := h.calls
  tcp j hj := (update_tcp_of_ne g hj).trans (h.tcp j hj)
  changes j := (h.changes j).trans (changes_update hg)

theorem Touched.reenter (h : Touched id s s') : Touched id s s'.reenter :=
  ⟨h.accepting, h.connections, h.httpConnections, h.shuttingDown, h.calls, h.tcp, h.changes⟩

theorem Touched.actBy (h : Touched id s s') (a : Action) :
    Touched id s (s'.actBy HttpServer.reenter id a) := by
  cases a with
  | send keepAlive =>
    have hsend : Touched id s (s'.update id Tcp.sendData) := h.update (.single (.sendData _))
    cases keepAlive
    · exact hsend.reenter
    · exact hsend
  | disconnect =>
    unfold HttpServer.actBy
    dsimp only
    split
    · exact h.update (.single (.pend _))
    · exact h.reenter

theorem touched_notify (s : HttpServer) (id : Nat) :
    Touched id (s.call (.disconnected id)) (s.notifyDisconnected id) := by
  unfold notifyDisconnected
  have hacts : ∀ (acts : List Action) (s' : HttpServer), Touched id (s.call (.disconnected id)) s' →
      Touched id (s.call (.disconnected id))
        (acts.foldl (fun s a => s.actBy HttpServer.reenter id a) s') := by
    intro acts
    induction acts with
    | nil => exact fun _ h => h
    | cons a acts ih => exact fun s' h => ih _ (h.actBy a)
  exact hacts _ _ (.refl _)

/-- The end of a connection that is in `http_connections_`. -/
theorem disconnectedHandler_tcp :
    (s.disconnectedHandler id).tcp = (s.notifyDisconnected id).tcp := by
  unfold disconnectedHandler
  dsimp only
  split <;> rfl

@[simp] theorem disconnected_httpConnections :
    (s.disconnected id).httpConnections = s.httpConnections.erase id := by
  have hnotify := (touched_notify s id).httpConnections
  unfold disconnected disconnectedHandler
  split
  · dsimp only
    split <;> exact congrArg (List.erase · id) hnotify
  · rename_i h
    exact (List.erase_of_not_mem h).symm

theorem disconnected_tcp_of_ne (hj : j ≠ id) : (s.disconnected id).tcp j = s.tcp j := by
  unfold disconnected
  dsimp only
  split
  · rw [disconnectedHandler_tcp]
    exact (touched_notify s id).tcp j hj
  · rfl

theorem changes_disconnected : Changes (s.tcp j) ((s.disconnected id).tcp j) := by
  unfold disconnected
  dsimp only
  split
  · rw [disconnectedHandler_tcp]
    exact (touched_notify s id).changes j
  · exact .refl

theorem disconnected_calls : (s.disconnected id).calls =
    if id ∈ s.httpConnections then s.calls ++ [.disconnected id] else s.calls := by
  unfold disconnected disconnectedHandler
  split
  · dsimp only
    split <;> exact (touched_notify s id).calls
  · rfl

/-- The connection is erased, or the server is closed with its last `http_connection`. -/
theorem disconnected_connections (s : HttpServer) (id : Nat) :
    (s.disconnected id).connections = s.connections.erase id ∧
        (s.disconnected id).accepting = s.accepting ∨
      (s.disconnected id).connections = [] ∧ s.httpConnections.erase id = [] ∧
        id ∈ s.httpConnections ∧ s.shuttingDown := by
  have hnotify := touched_notify s id
  unfold disconnected disconnectedHandler
  split
  · rename_i hmem
    dsimp only
    rw [hnotify.httpConnections, hnotify.shuttingDown]
    split
    · rename_i hlast
      simp only [call_httpConnections, Bool.and_eq_true, List.isEmpty_iff] at hlast
      exact .inr ⟨rfl, hlast.2, hmem, hlast.1⟩
    · exact .inl ⟨congrArg (List.erase · id) hnotify.connections, hnotify.accepting⟩
  · exact .inl ⟨rfl, rfl⟩

theorem mem_disconnected_connections (h : j ∈ (s.disconnected id).connections) :
    j ∈ s.connections := by
  rcases disconnected_connections s id with ⟨heq, -⟩ | ⟨heq, -⟩
  · rw [heq] at h
    exact List.mem_of_mem_erase h
  · rw [heq] at h
    cases h

/-! ## A callback, piece by piece -/

/-- What a callback of a connection is made of. -/
inductive Piece (id : Nat) : HttpServer → HttpServer → Prop
  | change {s : HttpServer} {f : Tcp → Tcp} (h : Change (s.tcp id) (f (s.tcp id))) :
    Piece id s (s.update id f)
  | disconnected (s : HttpServer) : Piece id s (s.disconnected id)
  | call (s : HttpServer) (c : Call) : Piece id s (s.call c)

abbrev Pieces (id : Nat) : HttpServer → HttpServer → Prop := Relation.ReflTransGen (Piece id)

theorem update_update (g h : Tcp → Tcp) :
    (s.update id g).update id h = s.update id fun t => h (g t) := by
  simp [update]

theorem pieces_act (s : HttpServer) (id : Nat) (a : Action) : Pieces id s (s.act id a) := by
  cases a with
  | send keepAlive =>
    have hsend : Pieces id s (s.update id Tcp.sendData) := .single (.change (.sendData _))
    cases keepAlive
    · exact hsend.tail (.disconnected _)
    · exact hsend
  | disconnect =>
    unfold act actBy
    dsimp only
    split
    · exact .single (.change (.pend _))
    · exact .single (.disconnected s)

theorem pieces_acts (s : HttpServer) (id : Nat) (acts : List Action) :
    Pieces id s (acts.foldl (fun s a => s.act id a) s) := by
  induction acts generalizing s with
  | nil => exact .refl
  | cons a acts ih => exact (pieces_act s id a).trans (ih _)

theorem pieces_handler (s : HttpServer) (id : Nat) (c : Call) (acts : List Action) :
    Pieces id s (s.handler id c acts) := .head (.call s c) (pieces_acts _ id acts)

theorem pieces_requests (s : HttpServer) (id : Nat) (requests : List (List Action)) :
    Pieces id s (requests.foldl (fun s acts => s.handler id (.request id) acts) s) := by
  induction requests generalizing s with
  | nil => exact .refl
  | cons acts requests ih => exact (pieces_handler s id _ acts).trans (ih _)

theorem pieces_failed (s : HttpServer) (id : Nat) (e : Failure) : Pieces id s (s.failed id e) := by
  cases e with
  | disconnect => exact .single (.disconnected s)
  | aborted => exact .refl
  | other => exact .refl

theorem pieces_readCallback (hreads : 0 < (s.tcp id).reads)
    (r : Except Failure (List (List Action))) : Pieces id s (s.readCallback id r) := by
  unfold readCallback
  cases r with
  | ok requests =>
    unfold readHandler received
    dsimp only
    rw [update_update]
    have hdone : Pieces id s
        (s.update id fun t => { t with reads := t.reads - 1, receiving := false }) :=
      .single (.change (.readDone hreads))
    refine (hdone.trans ?_).tail (.change (.enableReception _))
    split
    · exact .head (.change (.enableReception _)) (pieces_requests _ id requests)
    · exact .refl
  | error e => exact .head (.change (.readFailed hreads)) (pieces_failed _ id e)

theorem pieces_writeCallback (hwrites : 0 < (s.tcp id).writes)
    (r : Except Failure (List Action)) : Pieces id s (s.writeCallback id r) := by
  have hfailed : Pieces id s (s.update id fun t => { t with writes := t.writes - 1 }) :=
    .single (.change (.writeFailed hwrites))
  unfold writeCallback
  cases r with
  | ok acts =>
    dsimp only
    split
    · exact hfailed.tail (.disconnected _)
    · unfold writeHandler
      dsimp only
      rw [update_update]
      have hdone : Pieces id s
          (s.update id fun t => { t with writes := t.writes - 1, transmitting := false }) :=
        .single (.change (.writeDone hwrites))
      refine hdone.trans ?_
      split
      · exact pieces_handler _ id _ acts
      · exact .refl
  | error e => exact hfailed.trans (pieces_failed _ id e)

theorem Pieces.changes (h : Pieces id s s') : Changes (s.tcp j) (s'.tcp j) := by
  refine all_keep (P := fun t => Changes (s.tcp j) (t.tcp j)) (fun _ _ hs hpiece => ?_) h .refl
  cases hpiece with
  | change hchange => exact hs.trans (changes_update (.single hchange))
  | disconnected => exact hs.trans changes_disconnected
  | call => exact hs

end HttpServer

/-! ## The invariant -/

/-- At most one read and one write are in progress, and the flags say so. -/
structure Tcp.Sound (t : Tcp) : Prop where
  connected : t.connected = true
  reads_le : t.reads ≤ t.receiving.toNat
  writes_le : t.writes ≤ t.transmitting.toNat

namespace Tcp

variable {t t' : Tcp}

theorem sound_handshake : init.handshake.Sound := ⟨rfl, by decide, by decide⟩

theorem Sound.enableReception (h : t.Sound) : t.enableReception.Sound := by
  unfold Tcp.enableReception
  obtain ⟨hc, hr, hw⟩ := h
  split
  · exact ⟨hc, hr, hw⟩
  · rename_i hidle
    rw [Bool.not_eq_true] at hidle
    rw [hidle] at hr
    exact ⟨hc, Nat.succ_le_succ hr, hw⟩

theorem Sound.sendData (h : t.Sound) : t.sendData.Sound := by
  unfold Tcp.sendData
  obtain ⟨hc, hr, hw⟩ := h
  split
  · exact ⟨hc, hr, hw⟩
  · rename_i hidle
    rw [Bool.not_eq_true] at hidle
    rw [hidle] at hw
    simp only [writeData, hc, if_true]
    exact ⟨rfl, hr, Nat.succ_le_succ hw⟩

theorem Sound.change (h : t.Sound) (hchange : Change t t') : t'.Sound := by
  have hreads := h.reads_le.trans (Bool.toNat_le _)
  have hwrites := h.writes_le.trans (Bool.toNat_le _)
  cases hchange with
  | sendData => exact h.sendData
  | enableReception => exact h.enableReception
  | pend => exact ⟨h.connected, h.reads_le, h.writes_le⟩
  | readFailed => exact ⟨h.connected, (Nat.sub_le _ _).trans h.reads_le, h.writes_le⟩
  | readDone => exact ⟨h.connected, (Nat.sub_eq_zero_of_le hreads).le, h.writes_le⟩
  | writeFailed => exact ⟨h.connected, h.reads_le, (Nat.sub_le _ _).trans h.writes_le⟩
  | writeDone => exact ⟨h.connected, h.reads_le, (Nat.sub_eq_zero_of_le hwrites).le⟩

theorem Sound.changes (h : t.Sound) (hchanges : Changes t t') : t'.Sound :=
  all_keep (fun _ _ => Sound.change) hchanges h

end Tcp

namespace HttpServer

/-- The invariant between callbacks. -/
structure Sound (s : HttpServer) : Prop where
  nodup : s.connections.Nodup
  http_nodup : s.httpConnections.Nodup
  accepting : s.httpConnections ≠ [] → s.accepting = true
  owned : ∀ id ∈ s.httpConnections, id ∈ s.connections
  tcp : ∀ id ∈ s.connections, (s.tcp id).Sound

/-- The invariant within a callback of the connection `id`, which lives until its end. A new one is
in `connections_` only after that. -/
structure Within (new : Bool) (id : Nat) (s : HttpServer) : Prop where
  nodup : s.connections.Nodup
  http_nodup : s.httpConnections.Nodup
  accepting : s.httpConnections ≠ [] → s.accepting = true
  owned : ∀ j ∈ s.httpConnections, j ∈ s.connections ∨ new = true ∧ j = id
  not_mem : new = true → id ∉ s.connections
  tcp : ∀ j, j ∈ s.connections ∨ j = id → (s.tcp j).Sound

variable {s : HttpServer} {id j : Nat} {new : Bool} {f : Tcp → Tcp}

theorem Sound.within (h : Sound s) (hid : id ∈ s.connections) : Within false id s where
  nodup := h.nodup
  http_nodup := h.http_nodup
  accepting := h.accepting
  owned j hj := .inl (h.owned j hj)
  not_mem hnew := by cases hnew
  tcp j hj := by
    rcases hj with hj | rfl
    · exact h.tcp j hj
    · exact h.tcp j hid

theorem Within.sound (h : Within false id s) : Sound s where
  nodup := h.nodup
  http_nodup := h.http_nodup
  accepting := h.accepting
  owned j hj := (h.owned j hj).resolve_right (by simp)
  tcp j hj := h.tcp j (.inl hj)

theorem Within.update (h : Within new id s) (hf : (s.tcp id).Sound → (f (s.tcp id)).Sound) :
    Within new id (s.update id f) where
  nodup := h.nodup
  http_nodup := h.http_nodup
  accepting := h.accepting
  owned := h.owned
  not_mem := h.not_mem
  tcp j hj := by
    by_cases hne : j = id
    · subst hne
      rw [update_tcp_self]
      exact hf (h.tcp j (.inr rfl))
    · rw [update_tcp_of_ne f hne]
      exact h.tcp j hj

theorem Within.call (h : Within new id s) (c : Call) : Within new id (s.call c) :=
  ⟨h.nodup, h.http_nodup, h.accepting, h.owned, h.not_mem, h.tcp⟩

theorem Within.disconnected (h : Within new id s) : Within new id (s.disconnected id) where
  nodup := by
    rcases disconnected_connections s id with ⟨heq, -⟩ | ⟨heq, -⟩
    · rw [heq]
      exact h.nodup.erase id
    · rw [heq]
      exact List.nodup_nil
  http_nodup := by
    rw [disconnected_httpConnections]
    exact h.http_nodup.erase id
  accepting hne := by
    rw [disconnected_httpConnections] at hne
    rcases disconnected_connections s id with ⟨-, heq⟩ | ⟨-, hnil, -⟩
    · rw [heq]
      exact h.accepting fun hnil => hne (by rw [hnil]; rfl)
    · exact absurd hnil hne
  owned j hj := by
    rw [disconnected_httpConnections] at hj
    rcases disconnected_connections s id with ⟨heq, -⟩ | ⟨-, hnil, -⟩
    · obtain ⟨hne, hj⟩ := h.http_nodup.mem_erase_iff.mp hj
      rw [heq, List.mem_erase_of_ne hne]
      exact (h.owned j hj).imp_right fun ⟨_, heq⟩ => absurd heq hne
    · rw [hnil] at hj
      cases hj
  not_mem hnew hmem := h.not_mem hnew (mem_disconnected_connections hmem)
  tcp j hj := (h.tcp j (hj.imp_left mem_disconnected_connections)).changes changes_disconnected

/-! ## The order of the calls -/

/-- How far a connection has come. -/
inductive Phase
  | absent
  | live
  /-- its end has been signalled; requests of the packet that is being read may follow -/
  | ending
  | broken
  deriving DecidableEq

/-- What a call makes of the phase of a connection. -/
def Phase.next (id : Nat) (p : Phase) : Call → Phase
  | .connected j => if j ≠ id then p else if p = .absent then .live else .broken
  | .request j => if j ≠ id then p else if p = .live || p = .ending then p else .broken
  | .sent j => if j ≠ id then p else if p = .live then .live else .broken
  | .disconnected j => if j ≠ id then p else if p = .live then .ending else .broken
  | .returned => if p = .ending then .absent else p
  | .cleared => if p = .broken then .broken else .absent

/-- The phase of a connection after the calls so far. -/
def phase (s : HttpServer) (id : Nat) : Phase := s.calls.foldl (Phase.next id) .absent

/-- **The calls are in order**, and the connections that have one are in `http_connections_`. -/
structure Ordered (s : HttpServer) : Prop where
  not_broken : ∀ id, s.phase id ≠ .broken
  live_iff : ∀ id, s.phase id = .live ↔ id ∈ s.httpConnections

@[simp] theorem phase_call (c : Call) : (s.call c).phase j = (s.phase j).next j c := by
  simp [phase, call]

theorem phase_disconnected : (s.disconnected id).phase j =
    if id ∈ s.httpConnections then (s.phase j).next j (.disconnected id) else s.phase j := by
  unfold phase
  rw [disconnected_calls]
  split
  · rw [List.foldl_append]
    rfl
  · rfl

theorem Ordered.disconnected (h : Ordered s) (hn : s.httpConnections.Nodup) :
    Ordered (s.disconnected id) := by
  by_cases hid : id ∈ s.httpConnections
  · have hlive := (h.live_iff id).mpr hid
    have hphase : ∀ j, (s.disconnected id).phase j = if id ≠ j then s.phase j else .ending := by
      intro j
      rw [phase_disconnected, if_pos hid]
      by_cases hj : id = j
      · subst hj
        simp [Phase.next, hlive]
      · simp [Phase.next, hj]
    constructor
    · intro j
      rw [hphase]
      split
      · exact h.not_broken j
      · exact Phase.noConfusion
    · intro j
      rw [hphase, disconnected_httpConnections, hn.mem_erase_iff]
      by_cases hj : id = j
      · simp [hj]
      · simp [hj, Ne.symm hj, h.live_iff j]
  · have hphase : ∀ j, (s.disconnected id).phase j = s.phase j := fun j => by
      rw [phase_disconnected, if_neg hid]
    constructor
    · intro j
      rw [hphase]
      exact h.not_broken j
    · intro j
      rw [hphase, disconnected_httpConnections, List.erase_of_not_mem hid]
      exact h.live_iff j

/-- The connection has begun, and may have ended. -/
def Begun (id : Nat) (s : HttpServer) : Prop := s.phase id = .live ∨ s.phase id = .ending

theorem Begun.disconnected (h : Begun id s) (ho : Ordered s) : Begun id (s.disconnected id) := by
  unfold Begun at h ⊢
  rw [phase_disconnected]
  split
  · rename_i hid
    simp [(ho.live_iff id).mpr hid, Phase.next]
  · exact h

/-! ## A callback -/

/-- What holds while the handlers of a connection are called. -/
structure Handling (new : Bool) (id : Nat) (s : HttpServer) : Prop extends
    Within new id s, Ordered s where
  begun : Begun id s

theorem Handling.update (h : Handling new id s) (hf : (s.tcp id).Sound → (f (s.tcp id)).Sound) :
    Handling new id (s.update id f) :=
  ⟨h.toWithin.update hf, ⟨h.not_broken, h.live_iff⟩, h.begun⟩

theorem Handling.disconnected (h : Handling new id s) : Handling new id (s.disconnected id) :=
  ⟨h.toWithin.disconnected, h.toOrdered.disconnected h.http_nodup,
    h.begun.disconnected h.toOrdered⟩

theorem Handling.act (h : Handling new id s) (a : Action) : Handling new id (s.act id a) := by
  cases a with
  | send keepAlive =>
    have hsend : Handling new id (s.update id Tcp.sendData) := h.update Tcp.Sound.sendData
    cases keepAlive
    · exact hsend.disconnected
    · exact hsend
  | disconnect =>
    unfold HttpServer.act HttpServer.actBy
    dsimp only
    split
    · exact h.update fun ht => ⟨ht.connected, ht.reads_le, ht.writes_le⟩
    · exact h.disconnected

theorem Handling.acts (h : Handling new id s) (acts : List Action) :
    Handling new id (acts.foldl (fun s a => s.act id a) s) := by
  induction acts generalizing s with
  | nil => exact h
  | cons a acts ih => exact ih (h.act a)

/-- A handler is called, where the call is in order and leaves the connection live. -/
theorem Handling.call (h : Handling new id s) {c : Call}
    (hsame : ∀ j, (s.phase j).next j c = s.phase j) : Handling new id (s.call c) where
  toWithin := h.toWithin.call c
  not_broken j := by
    rw [phase_call, hsame]
    exact h.not_broken j
  live_iff j := by
    rw [phase_call, hsame]
    exact h.live_iff j
  begun := by
    unfold Begun
    rw [phase_call, hsame]
    exact h.begun

theorem Begun.next_request (h : Begun id s) (j : Nat) :
    (s.phase j).next j (.request id) = s.phase j := by
  by_cases hj : id = j
  · subst hj
    rcases h with h | h <;> simp [h, Phase.next]
  · simp [Phase.next, hj]

theorem Handling.requests (h : Handling new id s) (requests : List (List Action)) :
    Handling new id (requests.foldl (fun s acts => s.handler id (.request id) acts) s) := by
  induction requests generalizing s with
  | nil => exact h
  | cons acts requests ih => exact ih ((h.call h.begun.next_request).acts acts)

/-- The invariant of all runs. -/
structure Inv (s : HttpServer) : Prop extends Sound s, Ordered s

theorem Handling.inv (h : Handling false id s) : Inv s := ⟨h.toWithin.sound, h.toOrdered⟩

theorem Inv.handling (h : Inv s) (hid : id ∈ s.httpConnections) : Handling false id s :=
  ⟨h.toSound.within (h.owned id hid), h.toOrdered, .inl ((h.live_iff id).mpr hid)⟩

/-! ## A step -/

theorem Sound.update_tcp (h : Sound s) (hid : id ∈ s.connections)
    (hf : (s.tcp id).Sound → (f (s.tcp id)).Sound) : Sound (s.update id f) :=
  ((h.within hid).update hf).sound

theorem Inv.update (h : Inv s) (hid : id ∈ s.connections)
    (hf : (s.tcp id).Sound → (f (s.tcp id)).Sound) : Inv (s.update id f) :=
  ⟨h.toSound.update_tcp hid hf, ⟨h.not_broken, h.live_iff⟩⟩

theorem Inv.disconnected (h : Inv s) (hid : id ∈ s.connections) : Inv (s.disconnected id) :=
  ⟨(h.toSound.within hid).disconnected.sound, h.toOrdered.disconnected h.http_nodup⟩

theorem Inv.failed (h : Inv s) (hid : id ∈ s.connections) (e : Failure) : Inv (s.failed id e) := by
  cases e with
  | disconnect => exact h.disconnected hid
  | aborted => exact h
  | other => exact h

theorem Inv.readHandler (h : Inv s) (hid : id ∈ s.connections) (hidle : (s.tcp id).reads = 0)
    (requests : List (List Action)) : Inv (s.readHandler id requests) := by
  have h₁ : Inv (s.update id fun t => { t with receiving := false }) :=
    h.update hid fun ht => ⟨ht.connected, hidle.le, ht.writes_le⟩
  unfold HttpServer.readHandler received
  dsimp only
  split
  · rename_i hhttp
    have hread := (h₁.handling hhttp).update Tcp.Sound.enableReception
    exact ((hread.requests requests).update Tcp.Sound.enableReception).inv
  · exact h₁.update hid Tcp.Sound.enableReception

theorem Inv.readCallback (h : Inv s) (hid : id ∈ s.connections)
    (r : Except Failure (List (List Action))) : Inv (s.readCallback id r) := by
  have hreads := (h.tcp id hid).reads_le.trans (Bool.toNat_le _)
  have h₁ : Inv (s.update id fun t => { t with reads := t.reads - 1 }) :=
    h.update hid fun ht => ⟨ht.connected, (Nat.sub_le _ _).trans ht.reads_le, ht.writes_le⟩
  cases r with
  | ok requests =>
    refine h₁.readHandler hid ?_ requests
    rw [update_tcp_self]
    exact Nat.sub_eq_zero_of_le hreads
  | error e => exact h₁.failed hid e

theorem Inv.writeHandler (h : Inv s) (hid : id ∈ s.connections) (hidle : (s.tcp id).writes = 0)
    (acts : List Action) : Inv (s.writeHandler id acts) := by
  have h₁ : Inv (s.update id fun t => { t with transmitting := false }) :=
    h.update hid fun ht => ⟨ht.connected, ht.reads_le, hidle.le⟩
  unfold HttpServer.writeHandler
  dsimp only
  split
  · rename_i hhttp
    refine (((h₁.handling hhttp).call fun j => ?_).acts acts).inv
    by_cases hj : id = j
    · subst hj
      simp [Phase.next, (h₁.live_iff id).mpr hhttp]
    · simp [Phase.next, hj]
  · exact h₁

theorem Inv.writeCallback (h : Inv s) (hid : id ∈ s.connections)
    (r : Except Failure (List Action)) : Inv (s.writeCallback id r) := by
  have hwrites := (h.tcp id hid).writes_le.trans (Bool.toNat_le _)
  have h₁ : Inv (s.update id fun t => { t with writes := t.writes - 1 }) :=
    h.update hid fun ht => ⟨ht.connected, ht.reads_le, (Nat.sub_le _ _).trans ht.writes_le⟩
  cases r with
  | ok acts =>
    unfold HttpServer.writeCallback
    dsimp only
    split
    · exact h₁.disconnected hid
    · refine h₁.writeHandler hid ?_ acts
      rw [update_tcp_self]
      exact Nat.sub_eq_zero_of_le hwrites
  | error e => exact h₁.failed hid e

/-- The handler for the start of a connection is called. -/
theorem Inv.connected (h : Inv s) (hopen : s.accepting = true) (hid : id ∉ s.connections)
    (ht : (s.tcp id).Sound) (hsettled : s.phase id ≠ .ending) :
    Handling true id ({ s with httpConnections := s.httpConnections ++ [id] }.call
      (.connected id)) := by
  have hhttp : id ∉ s.httpConnections := fun hmem => hid (h.owned id hmem)
  have hphase : ∀ j, (({ s with httpConnections := s.httpConnections ++ [id] } :
      HttpServer).call (.connected id)).phase j = if id = j then .live else s.phase j := by
    intro j
    rw [phase_call]
    change (s.phase j).next j _ = _
    by_cases hj : id = j
    · subst hj
      have hlive := (h.live_iff id).not.mpr hhttp
      have hbroken := h.not_broken id
      cases hp : s.phase id <;> simp_all [Phase.next]
    · simp [Phase.next, hj]
  exact {
    nodup := h.nodup
    http_nodup := by
      refine List.nodup_append.mpr ⟨h.http_nodup, List.nodup_singleton id, ?_⟩
      rintro j hj _ hmem rfl
      rw [List.mem_singleton.mp hmem] at hj
      exact hhttp hj
    accepting := fun _ => hopen
    owned := by
      intro j hj
      rcases List.mem_append.mp hj with hj | hj
      · exact .inl (h.owned j hj)
      · exact .inr ⟨rfl, List.mem_singleton.mp hj⟩
    not_mem := fun _ => hid
    tcp := by
      rintro j (hj | rfl)
      · exact h.tcp j hj
      · exact ht
    not_broken := by
      intro j
      rw [hphase]
      split
      · exact Phase.noConfusion
      · exact h.not_broken j
    live_iff := by
      intro j
      rw [hphase]
      by_cases hj : id = j
      · simp [hj]
      · simp [hj, Ne.symm hj, h.live_iff j]
    begun := .inl (by rw [hphase, if_pos rfl]) }

theorem accept_eq (hid : id ∉ s.httpConnections) (acts : List Action) :
    s.accept id acts =
      let t := { s.update id fun _ => Tcp.init.handshake with
        httpConnections := s.httpConnections ++ [id] }.handler id (.connected id) acts
      { t with connections := t.connections ++ [id] } := by
  unfold HttpServer.accept HttpServer.connected
  rw [if_neg (by exact hid)]
  rfl

theorem Inv.accept (h : Inv s) (hopen : s.accepting = true) (hid : id ∉ s.connections)
    (hsettled : s.phase id ≠ .ending) (acts : List Action) : Inv (s.accept id acts) := by
  have h₁ : Inv (s.update id fun _ => Tcp.init.handshake) := by
    refine ⟨⟨h.nodup, h.http_nodup, h.accepting, h.owned, fun j hj => ?_⟩, h.not_broken,
      h.live_iff⟩
    have hne : j ≠ id := fun heq => hid (heq ▸ hj)
    rw [update_tcp_of_ne _ hne]
    exact h.tcp j hj
  have hhttp : id ∉ s.httpConnections := fun hmem => hid (h.owned id hmem)
  have hsound : ((s.update id fun _ => Tcp.init.handshake).tcp id).Sound := by
    rw [update_tcp_self]
    exact Tcp.sound_handshake
  have hhandled := (h₁.connected hopen hid hsound hsettled).acts acts
  have hnotMem := hhandled.not_mem rfl
  rw [accept_eq hhttp]
  refine ⟨⟨?_, hhandled.http_nodup, hhandled.accepting, fun j hj => ?_, fun j hj => ?_⟩,
    ⟨hhandled.not_broken, hhandled.live_iff⟩⟩
  · refine List.nodup_append.mpr ⟨hhandled.nodup, List.nodup_singleton id, ?_⟩
    rintro j hj _ hmem rfl
    rw [List.mem_singleton.mp hmem] at hj
    exact hnotMem hj
  · exact List.mem_append.mpr ((hhandled.owned j hj).imp_right fun h => by simp [h.2])
  · exact hhandled.tcp j ((List.mem_append.mp hj).imp_right List.mem_singleton.mp)

/-- Between callbacks: no end is being signalled, and nothing has gone wrong. -/
structure Settled (s : HttpServer) : Prop where
  phase : ∀ id, s.phase id ≠ .ending
  reentered : s.reentered = false

theorem Phase.next_returned (p : Phase) :
    p.next id .returned = if p = .ending then .absent else p := rfl

theorem settled_returned (h : s.reentered = false) : Settled (s.call .returned) where
  phase id := by
    rw [phase_call, Phase.next_returned]
    split
    · exact Phase.noConfusion
    · assumption
  reentered := h

theorem Inv.returned (h : Inv s) : Inv (s.call .returned) := by
  refine ⟨⟨h.nodup, h.http_nodup, h.accepting, h.owned, h.tcp⟩, fun j => ?_, fun j => ?_⟩
  · rw [phase_call, Phase.next_returned]
    split
    · exact Phase.noConfusion
    · exact h.not_broken j
  · rw [phase_call, Phase.next_returned, call_httpConnections, ← h.live_iff j]
    split
    · rename_i hending
      rw [hending]
      simp
    · rfl

theorem finish_eq_ok : s.finish = .ok s' ↔ s.reentered = false ∧ s.call .returned = s' := by
  unfold finish
  cases s.reentered <;> simp

/-! ## A disconnected handler that sends at most -/

/-- The disconnected handler sends at most, and leaves its connection alive. -/
def Gentle (onDisconnected : List Call → List Action) : Prop :=
  ∀ calls, ∀ a ∈ onDisconnected calls, a = .send true

/-- Nothing has gone wrong, and the disconnected handler will not see to it. -/
structure Calm (s : HttpServer) : Prop where
  gentle : Gentle s.onDisconnected
  reentered : s.reentered = false

theorem Calm.update (h : Calm s) (f : Tcp → Tcp) : Calm (s.update id f) := ⟨h.gentle, h.reentered⟩

theorem Calm.call (h : Calm s) (c : Call) : Calm (s.call c) := ⟨h.gentle, h.reentered⟩

theorem Calm.notify (h : Calm s) (id : Nat) : Calm (s.notifyDisconnected id) := by
  unfold notifyDisconnected
  dsimp only
  have hacts : ∀ (acts : List Action) (s : HttpServer), Calm s → (∀ a ∈ acts, a = .send true) →
      Calm (acts.foldl (fun s a => s.actBy reenter id a) s) := by
    intro acts
    induction acts with
    | nil => exact fun _ h _ => h
    | cons a acts ih =>
      intro s h hacts
      obtain ⟨rfl, hrest⟩ := List.forall_mem_cons.mp hacts
      exact ih _ (h.update Tcp.sendData) hrest
  exact hacts _ _ (h.call _) (h.gentle _)

theorem Calm.disconnected (h : Calm s) (id : Nat) : Calm (s.disconnected id) := by
  have hnotify := h.notify id
  unfold HttpServer.disconnected disconnectedHandler
  dsimp only
  split
  · split <;> exact ⟨hnotify.gentle, hnotify.reentered⟩
  · exact ⟨h.gentle, h.reentered⟩

theorem Calm.pieces (h : Calm s) (hpieces : Pieces id s s') : Calm s' := by
  refine all_keep (fun _ _ hs hpiece => ?_) hpieces h
  cases hpiece with
  | change => exact hs.update _
  | disconnected => exact hs.disconnected id
  | call => exact hs.call _

theorem Calm.accept (h : Calm s) (id : Nat) (acts : List Action) : Calm (s.accept id acts) := by
  have hconnected : Calm ((s.update id fun _ => Tcp.init.handshake).connected id acts) := by
    have hinserted : Calm { s.update id fun _ => Tcp.init.handshake with
        httpConnections := s.httpConnections ++ [id] } := ⟨h.gentle, h.reentered⟩
    unfold HttpServer.connected
    split
    · exact h.update _
    · exact hinserted.pieces (pieces_handler _ id _ acts)
  exact ⟨hconnected.gentle, hconnected.reentered⟩

theorem Calm.finish (h : Calm s) : s.finish = .ok (s.call .returned) :=
  finish_eq_ok.mpr ⟨h.reentered, rfl⟩

/-! ## Shutdown -/

/-- What `clear` makes of the server. -/
def cleared (s : HttpServer) : HttpServer := { s with httpConnections := [] }.call .cleared

theorem phase_cleared (h : s.phase j ≠ .broken) : s.cleared.phase j = .absent := by
  unfold cleared
  rw [phase_call]
  change (s.phase j).next j .cleared = .absent
  simp [Phase.next, h]

theorem Inv.clear (h : Inv s) : s.clear = .ok s.cleared := if_pos h.owned

theorem Inv.cleared (h : Inv s) (hcalm : s.reentered = false) :
    Inv s.cleared ∧ Settled s.cleared := by
  have hphase := fun j => phase_cleared (h.not_broken j)
  refine ⟨⟨⟨h.nodup, List.nodup_nil, absurd rfl, List.forall_mem_nil _, h.tcp⟩, fun j => ?_,
    fun j => ?_⟩, fun j => ?_, hcalm⟩
  · rw [hphase]
    exact Phase.noConfusion
  · rw [hphase]
    exact iff_of_false Phase.noConfusion List.not_mem_nil
  · rw [hphase]
    exact Phase.noConfusion

theorem Inv.close (h : Inv s) (hcalm : s.reentered = false) :
    s.close = .ok s.cleared.closeServer ∧ Inv s.cleared.closeServer ∧
      Settled s.cleared.closeServer := by
  obtain ⟨hinv, hsettled⟩ := h.cleared hcalm
  refine ⟨?_, ⟨⟨List.nodup_nil, hinv.http_nodup, absurd rfl, List.forall_mem_nil _,
    List.forall_mem_nil _⟩, hinv.not_broken, hinv.live_iff⟩, hsettled.phase, hcalm⟩
  unfold HttpServer.close
  rw [h.clear]
  rfl

/-- The connection has a write in progress, as far as `disconnect` can tell. -/
def Busy (s : HttpServer) (id : Nat) : Prop := (s.tcp id).transmitting = true

instance : Decidable (s.Busy id) := inferInstanceAs (Decidable (_ = true))

/-- `disconnect` of a busy connection. -/
def pend (s : HttpServer) (id : Nat) : HttpServer :=
  s.update id fun t => { t with disconnectPending := true }

theorem busy_pend : (s.pend id).Busy j ↔ s.Busy j := by
  unfold Busy pend
  by_cases hj : j = id
  · subst hj
    rw [update_tcp_self]
  · rw [update_tcp_of_ne _ hj]

theorem Inv.pend (h : Inv s) (hid : id ∈ s.connections) : Inv (s.pend id) :=
  h.update hid fun ht => ⟨ht.connected, ht.reads_le, ht.writes_le⟩

/-- The loop ends with a connection that `disconnect` erases. -/
theorem shutdownLoop_idle {ids : List Nat} (hid : id ∈ s.connections)
    (hn : s.httpConnections.Nodup) (hidle : ¬ s.Busy id) :
    ∃ f, shutdownLoop (id :: ids) s = .error f ∧ (Calm s → f = .erased) := by
  have hact : s.act id .disconnect = s.disconnected id := if_neg hidle
  rw [shutdownLoop, if_pos hid, hact]
  dsimp only
  split
  · rename_i hreentered
    refine ⟨_, rfl, fun hcalm => ?_⟩
    rw [(hcalm.disconnected id).reentered] at hreentered
    cases hreentered
  · rw [if_neg]
    · exact ⟨_, rfl, fun _ => rfl⟩
    · rw [disconnected_httpConnections]
      exact hn.not_mem_erase

/-- It goes on with one that is busy. -/
theorem shutdownLoop_pend {ids : List Nat} (hid : id ∈ s.connections)
    (hhttp : id ∈ s.httpConnections) (hcalm : s.reentered = false) (hbusy : s.Busy id) :
    shutdownLoop (id :: ids) s = shutdownLoop ids (s.pend id) := by
  have hact : s.act id .disconnect = s.pend id := if_pos hbusy
  have hcalm : ¬ (s.pend id).reentered = true := (Bool.not_eq_true _).mpr hcalm
  rw [shutdownLoop, if_pos hid, hact]
  dsimp only
  rw [if_neg hcalm]
  exact if_pos hhttp

/-- `disconnect` of busy connections. -/
def pendAll (s : HttpServer) (ids : List Nat) : HttpServer :=
  { s with tcp := fun j => { s.tcp j with
    disconnectPending := (s.tcp j).disconnectPending || decide (j ∈ ids) } }

theorem pendAll_pend (ids : List Nat) : (s.pend id).pendAll ids = s.pendAll (id :: ids) := by
  have htcp : ((s.pend id).pendAll ids).tcp = (s.pendAll (id :: ids)).tcp := by
    funext j
    unfold pendAll pend
    by_cases hj : j = id
    · subst hj
      simp
    · simp [update_tcp_of_ne _ hj, hj]
  exact congrArg (fun tcp => { s with tcp := tcp }) htcp

theorem Inv.pendAll (h : Inv s) (ids : List Nat) : Inv (s.pendAll ids) :=
  ⟨⟨h.nodup, h.http_nodup, h.accepting, h.owned, fun id hid =>
    ⟨(h.tcp id hid).connected, (h.tcp id hid).reads_le, (h.tcp id hid).writes_le⟩⟩,
    h.not_broken, h.live_iff⟩

/-- Where all are busy, `disconnect` leaves all in their place. -/
theorem Inv.shutdownLoop_busy {ids : List Nat} (h : Inv s) (hcalm : s.reentered = false)
    (hids : ∀ id ∈ ids, id ∈ s.httpConnections) (hbusy : ∀ id ∈ ids, s.Busy id) :
    shutdownLoop ids s = .ok (s.pendAll ids) := by
  induction ids generalizing s with
  | nil => simp [shutdownLoop, HttpServer.pendAll]
  | cons id ids ih =>
    have hhttp := hids id List.mem_cons_self
    have hid := h.owned id hhttp
    rw [shutdownLoop_pend hid hhttp hcalm (hbusy id List.mem_cons_self), ← pendAll_pend]
    exact ih (h.pend hid) hcalm (fun j hj => hids j (List.mem_cons_of_mem id hj))
      fun j hj => busy_pend.mpr (hbusy j (List.mem_cons_of_mem id hj))

/-- The loop ends at the first connection that is not. -/
theorem Inv.shutdownLoop_idle {ids : List Nat} (h : Inv s) (hcalm : s.reentered = false)
    (hids : ∀ id ∈ ids, id ∈ s.httpConnections) (hidle : ∃ id ∈ ids, ¬ s.Busy id) :
    ∃ f, shutdownLoop ids s = .error f ∧ (Calm s → f = .erased) := by
  induction ids generalizing s with
  | nil => obtain ⟨id, hid, -⟩ := hidle; cases hid
  | cons id ids ih =>
    have hhttp := hids id List.mem_cons_self
    have hid := h.owned id hhttp
    by_cases hbusy : s.Busy id
    · rw [shutdownLoop_pend hid hhttp hcalm hbusy]
      obtain ⟨j, hj, hne⟩ := hidle
      have hj : j ∈ ids := (List.mem_cons.mp hj).resolve_left fun heq => hne (heq ▸ hbusy)
      obtain ⟨f, hf, herased⟩ := ih (h.pend hid) hcalm
        (fun j hj => hids j (List.mem_cons_of_mem id hj)) ⟨j, hj, busy_pend.not.mpr hne⟩
      exact ⟨f, hf, fun hcalm => herased (hcalm.update _)⟩
    · exact HttpServer.shutdownLoop_idle hid h.http_nodup hbusy

theorem Inv.shuttingDown (h : Inv s) : Inv { s with shuttingDown := true } :=
  ⟨⟨h.nodup, h.http_nodup, h.accepting, h.owned, h.tcp⟩, h.not_broken, h.live_iff⟩

/-- `shutdown` disconnects a connection at once. -/
def Hasty (s : HttpServer) : Prop := s.shuttingDown = false ∧ ∃ id ∈ s.httpConnections, ¬ s.Busy id

theorem Inv.shutdown_hasty (h : Inv s) (hcalm : s.reentered = false) (hs : s.Hasty) :
    ∃ f, s.shutdown = .error f ∧ (Calm s → f = .erased) := by
  obtain ⟨hfirst, id, hid, hidle⟩ := hs
  have hne : s.httpConnections.isEmpty = false := List.isEmpty_eq_false_iff_exists_mem.mpr ⟨id, hid⟩
  obtain ⟨f, hloop, herased⟩ :=
    h.shuttingDown.shutdownLoop_idle hcalm (fun _ h => h) ⟨id, hid, hidle⟩
  refine ⟨f, ?_, fun hcalm => herased ⟨hcalm.gentle, hcalm.reentered⟩⟩
  unfold HttpServer.shutdown
  rw [if_pos (by simp [hfirst, hne]), hloop]
  rfl

/-- What the first `shutdown` makes of a server all of whose connections are busy. -/
def shutdownBusy (s : HttpServer) : HttpServer :=
  ({ s with shuttingDown := true }.pendAll s.httpConnections).cleared

theorem Inv.shutdown_busy (h : Inv s) (hcalm : s.reentered = false)
    (hfirst : s.shuttingDown = false) (hne : s.httpConnections ≠ [])
    (hbusy : ∀ id ∈ s.httpConnections, s.Busy id) :
    s.shutdown = .ok s.shutdownBusy ∧ Inv s.shutdownBusy ∧ Settled s.shutdownBusy := by
  have hloop := h.shuttingDown.shutdownLoop_busy hcalm (fun _ h => h) hbusy
  have hpend := h.shuttingDown.pendAll s.httpConnections
  refine ⟨?_, hpend.cleared hcalm⟩
  have hne : s.httpConnections.isEmpty = false := List.isEmpty_eq_false_iff.mpr hne
  unfold HttpServer.shutdown
  rw [if_pos (by simp [hfirst, hne]), hloop]
  exact hpend.clear

theorem shutdown_close (h : s.shuttingDown = true ∨ s.httpConnections = []) :
    s.shutdown = s.close := by
  unfold HttpServer.shutdown
  refine if_neg ?_
  rcases h with h | h <;> simp [h]

/-- What `shutdown` makes of the server. -/
theorem Inv.shutdown_cases (h : Inv s) (hcalm : s.reentered = false) (hs : ¬ s.Hasty) :
    s.shutdown = s.close ∨ s.shutdown = .ok s.shutdownBusy ∧ Inv s.shutdownBusy ∧
      Settled s.shutdownBusy := by
  by_cases hclose : s.shuttingDown = true ∨ s.httpConnections = []
  · exact .inl (shutdown_close hclose)
  · rw [not_or, Bool.not_eq_true] at hclose
    exact .inr (h.shutdown_busy hcalm hclose.1 hclose.2 fun id hid =>
      by_contra fun hidle => hs ⟨hclose.1, id, hid, hidle⟩)

/-! ## Runs -/

variable {t : HttpServer} {i : Input} {inputs : List Input} {f : Fault}
  {d : List Call → List Action}

/-- What a `shutdown` that comes back makes of the server. -/
theorem Inv.shutdown_ok (h : Inv s) (hcalm : s.reentered = false)
    (hshutdown : s.shutdown = .ok s') :
    s' = s.cleared.closeServer ∨ s' = s.shutdownBusy ∧ Inv s.shutdownBusy ∧
      Settled s.shutdownBusy := by
  have hs : ¬ s.Hasty := fun hs => by
    obtain ⟨f, herror, -⟩ := h.shutdown_hasty hcalm hs
    rw [herror] at hshutdown
    cases hshutdown
  rcases h.shutdown_cases hcalm hs with hclose | ⟨hbusy, hkept⟩
  · rw [hclose, (h.close hcalm).1] at hshutdown
    exact .inl (Except.ok.inj hshutdown).symm
  · rw [hbusy] at hshutdown
    exact .inr ⟨(Except.ok.inj hshutdown).symm, hkept⟩

/-- A callback is run, or there is none. -/
theorem callback_eq_ok {p : Prop} [Decidable p] (h : (if p then t.finish else .ok s) = .ok s') :
    p ∧ t.reentered = false ∧ t.call .returned = s' ∨ ¬ p ∧ s = s' := by
  split at h
  · rename_i hp
    exact .inl ⟨hp, finish_eq_ok.mp h⟩
  · rename_i hp
    exact .inr ⟨hp, Except.ok.inj h⟩

/-- **What a step makes of the server.** -/
theorem Inv.step (h : Inv s) (hsettled : Settled s) (hstep : s.step i = .ok s') :
    Inv s' ∧ Settled s' := by
  cases i with
  | accepted id acts =>
    rcases callback_eq_ok hstep with ⟨hnew, hcalm, rfl⟩ | ⟨-, rfl⟩
    · exact ⟨(h.accept hnew.1 hnew.2 (hsettled.phase id) acts).returned, settled_returned hcalm⟩
    · exact ⟨h, hsettled⟩
  | read id r =>
    rcases callback_eq_ok hstep with ⟨hlive, hcalm, rfl⟩ | ⟨-, rfl⟩
    · exact ⟨(h.readCallback hlive.1 r).returned, settled_returned hcalm⟩
    · exact ⟨h, hsettled⟩
  | written id r =>
    rcases callback_eq_ok hstep with ⟨hlive, hcalm, rfl⟩ | ⟨-, rfl⟩
    · exact ⟨(h.writeCallback hlive.1 r).returned, settled_returned hcalm⟩
    · exact ⟨h, hsettled⟩
  | shutdown =>
    rcases h.shutdown_ok hsettled.reentered hstep with rfl | ⟨rfl, hkept⟩
    · exact (h.close hsettled.reentered).2
    · exact hkept
  | close =>
    obtain ⟨hclose, hkept⟩ := h.close hsettled.reentered
    have hstep : s.close = .ok s' := hstep
    rw [hclose] at hstep
    cases hstep
    exact hkept

/-- A step goes well, where the disconnected handler does, and leaves it as it is. -/
theorem Inv.step_calm (h : Inv s) (hcalm : Calm s) (hs : ¬ (i = .shutdown ∧ s.Hasty)) :
    ∃ s', s.step i = .ok s' ∧ Calm s' := by
  unfold HttpServer.step
  cases i with
  | accepted id acts =>
    dsimp only
    split
    · have haccept := hcalm.accept id acts
      exact ⟨_, haccept.finish, haccept.call _⟩
    · exact ⟨s, rfl, hcalm⟩
  | read id r =>
    dsimp only
    split
    · rename_i hlive
      have hread := hcalm.pieces (pieces_readCallback hlive.2 r)
      exact ⟨_, hread.finish, hread.call _⟩
    · exact ⟨s, rfl, hcalm⟩
  | written id r =>
    dsimp only
    split
    · rename_i hlive
      have hwritten := hcalm.pieces (pieces_writeCallback hlive.2 r)
      exact ⟨_, hwritten.finish, hwritten.call _⟩
    · exact ⟨s, rfl, hcalm⟩
  | shutdown =>
    rcases h.shutdown_cases hcalm.reentered fun hhasty => hs ⟨rfl, hhasty⟩ with hclose | hbusy
    · exact ⟨_, hclose.trans (h.close hcalm.reentered).1, hcalm.gentle, hcalm.reentered⟩
    · exact ⟨_, hbusy.1, hcalm.gentle, hcalm.reentered⟩
  | close => exact ⟨_, (h.close hcalm.reentered).1, hcalm.gentle, hcalm.reentered⟩

theorem exec_eq_ok {o : Unit} : machine.exec s i = .ok (s', o) ↔ s.step i = .ok s' := by
  cases hstep : s.step i <;> simp [machine, hstep, Except.map]

theorem exec_eq_error : machine.exec s i = .error f ↔ s.step i = .error f := by
  cases hstep : s.step i <;> simp [machine, hstep, Except.map]

theorem Inv.step_error (h : Inv s) (hcalm : Calm s) :
    s.step i = .error f ↔ f = .erased ∧ i = .shutdown ∧ s.Hasty := by
  by_cases hs : i = .shutdown ∧ s.Hasty
  · obtain ⟨e, herror, herased⟩ := h.shutdown_hasty hcalm.reentered hs.2
    have herror : s.step i = .error .erased := by
      rw [hs.1, ← herased hcalm]
      exact herror
    rw [herror, Except.error.injEq, eq_comm]
    exact ⟨fun hf => ⟨hf, hs⟩, And.left⟩
  · obtain ⟨s', hok, -⟩ := h.step_calm hcalm hs
    rw [hok]
    exact iff_of_false (by simp) fun herror => hs herror.2

theorem inv_init (d : List Call → List Action) : Inv (init d) where
  nodup := List.nodup_nil
  http_nodup := List.nodup_nil
  accepting := absurd rfl
  owned := List.forall_mem_nil _
  tcp := List.forall_mem_nil _
  not_broken _ := Phase.noConfusion
  live_iff _ := iff_of_false Phase.noConfusion List.not_mem_nil

theorem settled_init (d : List Call → List Action) : Settled (init d) :=
  ⟨fun _ => Phase.noConfusion, rfl⟩

theorem run_step (h : Inv s ∧ Settled s) {o : Unit} (hexec : machine.exec s i = .ok (s', o)) :
    Inv s' ∧ Settled s' :=
  h.1.step h.2 (exec_eq_ok.mp hexec)

/-- **The invariant holds in every run.** -/
theorem run_inv (h : machine.run (init d) inputs = .ok s) : Inv s ∧ Settled s :=
  Machine.run_invariant (I := fun s => Inv s ∧ Settled s) (fun _ _ _ _ h => run_step h) h
    ⟨inv_init d, settled_init d⟩

theorem Calm.step (hcalm : Calm s) (h : Inv s) (hstep : s.step i = .ok s') : Calm s' := by
  have hs : ¬ (i = .shutdown ∧ s.Hasty) := fun hs => by
    rw [(h.step_error hcalm).mpr ⟨rfl, hs⟩] at hstep
    cases hstep
  obtain ⟨t, ht, hkept⟩ := h.step_calm hcalm hs
  rw [hstep] at ht
  cases ht
  exact hkept

/-- The invariant of the runs with a disconnected handler that sends at most. -/
structure Kept (s : HttpServer) : Prop extends Inv s, Settled s, Calm s

theorem Kept.step (h : Kept s) (hstep : s.step i = .ok s') : Kept s' :=
  have hinv := h.toInv.step h.toSettled hstep
  ⟨hinv.1, hinv.2, (h.toCalm.step h.toInv hstep).gentle⟩

theorem run_kept (hd : Gentle d) (h : machine.run (init d) inputs = .ok s) : Kept s :=
  Machine.run_invariant (fun _ _ _ _ h hexec => h.step (exec_eq_ok.mp hexec)) h
    ⟨inv_init d, settled_init d, hd⟩

/-- **The handlers of a connection are called in order.** In the calls of a run each connection has
its start first, then requests and sent messages, and its end at most once. After that come the
rest of the packet that is being read, and nothing until the address is used again. -/
theorem run_inOrder (h : machine.run (init d) inputs = .ok s) (id : Nat) :
    s.phase id ≠ .broken ∧ (s.phase id = .live ↔ id ∈ s.httpConnections) :=
  ⟨(run_inv h).1.not_broken id, (run_inv h).1.live_iff id⟩

/-- Two connections; the second one disconnects on its request, the handler for its end sends, and
its address is used again. -/
theorem run_inOrder_two : ∃ s, machine.run (init fun _ => [.send true]) [.accepted 1 [],
      .accepted 2 [.send true], .read 2 (.ok [[.disconnect], []]), .read 1 (.ok [[.send true]]),
      .written 2 (.ok []), .accepted 2 []] = .ok s ∧
    s.phase 2 ≠ .broken ∧ (s.phase 2 = .live ↔ 2 ∈ s.httpConnections) :=
  Exists.imp (fun _ h => ⟨h, run_inOrder h 2⟩) ⟨_, rfl⟩

/-- **A connection has one read and one write in progress at most.** -/
theorem run_reads_writes (h : machine.run (init d) inputs = .ok s) {id : Nat}
    (hid : id ∈ s.connections) : (s.tcp id).reads ≤ 1 ∧ (s.tcp id).writes ≤ 1 := by
  have hsound := (run_inv h).1.tcp id hid
  exact ⟨hsound.reads_le.trans (Bool.toNat_le _), hsound.writes_le.trans (Bool.toNat_le _)⟩

theorem run_reads_writes_two : ∃ s, machine.run (init fun _ => []) [.accepted 1 [.send true],
      .read 1 (.ok [[.send true], [.send true]])] = .ok s ∧
    1 ∈ s.connections ∧ (s.tcp 1).reads ≤ 1 ∧ (s.tcp 1).writes ≤ 1 :=
  Exists.imp (fun _ (h : _ ∧ _) => ⟨h.1, h.2, run_reads_writes h.1 h.2⟩)
    ⟨_, rfl, List.mem_singleton_self 1⟩

/-- **No run goes through a bad pointer but one in which `shutdown` disconnects a connection at
once**, where the disconnected handler does not disconnect its connection once more. -/
theorem run_error_iff (hd : Gentle d) : machine.run (init d) inputs = .error f ↔
    f = .erased ∧ ∃ pre post s, inputs = pre ++ .shutdown :: post ∧
      machine.run (init d) pre = .ok s ∧ s.shuttingDown = false ∧
      ∃ id ∈ s.httpConnections, (s.tcp id).transmitting = false := by
  have hidle : ∀ (s : HttpServer) (id : Nat), ¬ s.Busy id ↔ (s.tcp id).transmitting = false :=
    fun s id => iff_of_eq (Bool.not_eq_true _)
  rw [Machine.run_error_iff_exists]
  constructor
  · rintro ⟨pre, i, post, s, rfl, hrun, hexec⟩
    obtain ⟨rfl, rfl, hfirst, id, hid, hbusy⟩ :=
      ((run_kept hd hrun).step_error (run_kept hd hrun).toCalm).mp (exec_eq_error.mp hexec)
    exact ⟨rfl, pre, post, s, rfl, hrun, hfirst, id, hid, (hidle s id).mp hbusy⟩
  · rintro ⟨rfl, pre, post, s, rfl, hrun, hfirst, id, hid, hbusy⟩
    have herror := ((run_kept hd hrun).step_error (run_kept hd hrun).toCalm).mpr
      ⟨rfl, rfl, hfirst, id, hid, (hidle s id).mpr hbusy⟩
    exact ⟨pre, .shutdown, post, s, rfl, hrun, exec_eq_error.mpr herror⟩

theorem run_error_iff_idle : ∃ pre post s, [Input.accepted 1 [], .accepted 2 [.send true],
      .written 2 (.error .other), .shutdown] = pre ++ .shutdown :: post ∧
    machine.run (init fun _ => [.send true]) pre = .ok s ∧ s.shuttingDown = false ∧
    ∃ id ∈ s.httpConnections, (s.tcp id).transmitting = false :=
  ((run_error_iff (d := fun _ => [.send true]) fun _ _ => List.mem_singleton.mp).mp rfl).2

/-! ## After a shutdown -/

/-- A read or a write. -/
def Input.IsOperation : Input → Prop
  | .read .. | .written .. => True
  | _ => False

/-- Nothing the handlers could see happens. -/
structure Still (s s' : HttpServer) : Prop where
  accepting : s'.accepting = s.accepting
  httpConnections : s'.httpConnections = s.httpConnections
  calls : s'.calls = s.calls

theorem Still.disconnected (h : Still s s') (hid : id ∉ s'.httpConnections) :
    Still s (s'.disconnected id) := by
  unfold HttpServer.disconnected
  rw [if_neg hid]
  exact ⟨h.accepting, h.httpConnections, h.calls⟩

theorem Still.update (h : Still s s') {g : Tcp → Tcp} : Still s (s'.update id g) :=
  ⟨h.accepting, h.httpConnections, h.calls⟩

theorem Still.refl (s : HttpServer) : Still s s := ⟨rfl, rfl, rfl⟩

theorem readCallback_still (hid : id ∉ s.httpConnections)
    (r : Except Failure (List (List Action))) : Still s (s.readCallback id r) := by
  have hreads : Still s (s.update id fun t => { t with reads := t.reads - 1 }) :=
    (Still.refl s).update
  unfold readCallback
  cases r with
  | ok requests =>
    unfold readHandler received
    dsimp only
    rw [if_neg (by exact hid)]
    exact hreads.update.update
  | error e =>
    cases e with
    | disconnect => exact hreads.disconnected hid
    | aborted => exact hreads
    | other => exact hreads

theorem writeCallback_still (hid : id ∉ s.httpConnections) (r : Except Failure (List Action)) :
    Still s (s.writeCallback id r) := by
  have hwrites : Still s (s.update id fun t => { t with writes := t.writes - 1 }) :=
    (Still.refl s).update
  unfold writeCallback
  cases r with
  | ok acts =>
    dsimp only
    split
    · exact hwrites.disconnected hid
    · unfold writeHandler
      dsimp only
      rw [if_neg (by exact hid)]
      exact hwrites.update
  | error e =>
    cases e with
    | disconnect => exact hwrites.disconnected hid
    | aborted => exact hwrites
    | other => exact hwrites

/-- A read or write where there is no `http_connection`. -/
theorem step_still (hnil : s.httpConnections = []) (hi : i.IsOperation)
    (hstep : s.step i = .ok s') : s'.accepting = s.accepting ∧ s'.httpConnections = [] ∧
      ∃ n, s'.calls = s.calls ++ List.replicate n .returned := by
  have hnot : ∀ id, id ∉ s.httpConnections := fun id => hnil ▸ List.not_mem_nil
  cases i with
  | read id r =>
    have hstill := readCallback_still (hnot id) r
    rcases callback_eq_ok hstep with ⟨-, -, rfl⟩ | ⟨-, rfl⟩
    · exact ⟨hstill.accepting, hstill.httpConnections.trans hnil, 1, by simp [call, hstill.calls]⟩
    · exact ⟨rfl, hnil, 0, by simp⟩
  | written id r =>
    have hstill := writeCallback_still (hnot id) r
    rcases callback_eq_ok hstep with ⟨-, -, rfl⟩ | ⟨-, rfl⟩
    · exact ⟨hstill.accepting, hstill.httpConnections.trans hnil, 1, by simp [call, hstill.calls]⟩
    · exact ⟨rfl, hnil, 0, by simp⟩
  | accepted id acts => cases hi
  | shutdown => cases hi
  | close => cases hi

/-- **A `shutdown` that disconnects no connection at once never closes the server.** The acceptor
stays open and no handler is called again, whatever becomes of the connections. -/
theorem shutdown_stays_open (h : machine.run (init d) inputs = .ok s)
    (hfirst : s.shuttingDown = false) (hne : s.httpConnections ≠ []) {after : List Input}
    (hafter : ∀ i ∈ after, i.IsOperation)
    {t : HttpServer} (hrun : machine.run s (.shutdown :: after) = .ok t) :
    t.accepting = true ∧ ∃ n, t.calls = s.calls ++ .cleared :: List.replicate n .returned := by
  obtain ⟨hinv, hsettled⟩ := run_inv h
  obtain ⟨s', o, hexec, hrest⟩ := Machine.run_cons_inv hrun
  have hshutdown : s.shutdown = .ok s' := exec_eq_ok.mp hexec
  have hbusy : ∀ id ∈ s.httpConnections, s.Busy id := fun id hid => by_contra fun hidle => by
    obtain ⟨f, herror, -⟩ := hinv.shutdown_hasty hsettled.reentered ⟨hfirst, id, hid, hidle⟩
    rw [herror] at hshutdown
    cases hshutdown
  have hcleared : s' = s.shutdownBusy := Except.ok.inj
    (hshutdown.symm.trans (hinv.shutdown_busy hsettled.reentered hfirst hne hbusy).1)
  suffices ∀ s' : HttpServer, s'.accepting = true → s'.httpConnections = [] →
      (∃ n, s'.calls = s.calls ++ .cleared :: List.replicate n .returned) →
      machine.run s' after = .ok t → t.accepting = true ∧
        ∃ n, t.calls = s.calls ++ .cleared :: List.replicate n .returned from
    this s' (hcleared ▸ hinv.accepting hne) (hcleared ▸ rfl) ⟨0, hcleared ▸ rfl⟩ hrest
  clear hrest hshutdown hexec hrun hcleared
  induction after with
  | nil =>
    rintro s' hopen - hcalls hrun
    cases hrun
    exact ⟨hopen, hcalls⟩
  | cons i after ih =>
    rintro s' hopen hnil ⟨n, hcalls⟩ hrun
    obtain ⟨s'', o, hexec, hrest⟩ := Machine.run_cons_inv hrun
    obtain ⟨hopen', hnil', m, hcalls'⟩ :=
      step_still hnil (hafter i List.mem_cons_self) (exec_eq_ok.mp hexec)
    refine ih (fun j hj => hafter j (List.mem_cons_of_mem i hj)) s'' (hopen'.trans hopen) hnil'
      ⟨n + m, ?_⟩ hrest
    rw [hcalls', hcalls, List.replicate_add]
    simp

/-- The write completes, and with it the connection ends. -/
theorem shutdown_stays_open_written : ∃ s t,
    machine.run (init fun _ => []) [.accepted 1 [.send true]] = .ok s ∧
    machine.run s [.shutdown, .written 1 (.ok [])] = .ok t ∧ t.accepting = true ∧
    ∃ n, t.calls = s.calls ++ .cleared :: List.replicate n .returned := by
  refine ⟨_, _, rfl, rfl, @shutdown_stays_open _ [.accepted 1 [.send true]] _ rfl rfl
    (List.cons_ne_nil 1 []) [.written 1 (.ok [])] ?_ _ rfl⟩
  exact List.forall_mem_singleton.mpr trivial

end HttpServer

/-! ## Operations that fail -/

namespace Tcp

/-- No read is in progress, and none will be started. -/
def Deaf (t : Tcp) : Prop := t.receiving = true ∧ t.reads = 0

/-- No write is in progress, and none will be started. -/
def Mute (t : Tcp) : Prop := t.transmitting = true ∧ t.writes = 0

variable {t t' : Tcp}

theorem Sound.deaf (h : t.Sound) (hreads : 0 < t.reads) :
    Deaf { t with reads := t.reads - 1 } := by
  refine ⟨?_, Nat.sub_eq_zero_of_le (h.reads_le.trans (Bool.toNat_le _))⟩
  cases hflag : t.receiving with
  | true => rfl
  | false =>
    have hle := h.reads_le
    rw [hflag] at hle
    exact absurd hle hreads.not_ge

theorem Sound.mute (h : t.Sound) (hwrites : 0 < t.writes) :
    Mute { t with writes := t.writes - 1 } := by
  refine ⟨?_, Nat.sub_eq_zero_of_le (h.writes_le.trans (Bool.toNat_le _))⟩
  cases hflag : t.transmitting with
  | true => rfl
  | false =>
    have hle := h.writes_le
    rw [hflag] at hle
    exact absurd hle hwrites.not_ge

theorem Deaf.change (h : t.Deaf) (hchange : Change t t') : t'.Deaf := by
  obtain ⟨hreceiving, hreads⟩ := h
  cases hchange with
  | sendData =>
    unfold Tcp.sendData writeData
    split
    · exact ⟨hreceiving, hreads⟩
    · split <;> exact ⟨hreceiving, hreads⟩
  | enableReception =>
    unfold Tcp.enableReception
    rw [if_pos hreceiving]
    exact ⟨hreceiving, hreads⟩
  | readFailed h => exact absurd hreads h.ne'
  | readDone h => exact absurd hreads h.ne'
  | pend => exact ⟨hreceiving, hreads⟩
  | writeFailed => exact ⟨hreceiving, hreads⟩
  | writeDone => exact ⟨hreceiving, hreads⟩

theorem Mute.change (h : t.Mute) (hchange : Change t t') : t'.Mute := by
  obtain ⟨htransmitting, hwrites⟩ := h
  cases hchange with
  | sendData =>
    unfold Tcp.sendData
    rw [if_pos htransmitting]
    exact ⟨htransmitting, hwrites⟩
  | enableReception =>
    unfold Tcp.enableReception
    split <;> exact ⟨htransmitting, hwrites⟩
  | writeFailed h => exact absurd hwrites h.ne'
  | writeDone h => exact absurd hwrites h.ne'
  | pend => exact ⟨htransmitting, hwrites⟩
  | readFailed => exact ⟨htransmitting, hwrites⟩
  | readDone => exact ⟨htransmitting, hwrites⟩

end Tcp

namespace HttpServer

open Tcp (Changes)

variable {s s' t : HttpServer} {id j : Nat} {i : Input} {inputs : List Input}
  {d : List Call → List Action}

theorem changes_pendAll (s : HttpServer) (ids : List Nat) :
    Changes (s.tcp j) ((s.pendAll ids).tcp j) := by
  unfold pendAll
  dsimp only
  by_cases hj : j ∈ ids
  · rw [decide_eq_true hj, Bool.or_true]
    exact .single (.pend _)
  · rw [decide_eq_false hj, Bool.or_false]

/-- What a step does to a connection that it does not accept. -/
theorem Inv.changes_step (h : Inv s) (hcalm : s.reentered = false) (hstep : s.step i = .ok s')
    (hi : ∀ acts, i ≠ .accepted j acts) : Changes (s.tcp j) (s'.tcp j) := by
  cases i with
  | accepted id acts =>
    have hne : j ≠ id := fun heq => hi acts (heq ▸ rfl)
    rcases callback_eq_ok hstep with ⟨hnew, -, rfl⟩ | ⟨-, rfl⟩
    · rw [accept_eq fun hmem => hnew.2 (h.owned id hmem)]
      have hsame : (s.update id fun _ => Tcp.init.handshake).tcp j = s.tcp j :=
        update_tcp_of_ne _ hne
      have hacts := (pieces_handler { s.update id fun _ => Tcp.init.handshake with
        httpConnections := s.httpConnections ++ [id] } id (.connected id) acts).changes (j := j)
      rwa [hsame] at hacts
    · exact .refl
  | read id r =>
    rcases callback_eq_ok hstep with ⟨hlive, -, rfl⟩ | ⟨-, rfl⟩
    · exact (pieces_readCallback hlive.2 r).changes
    · exact .refl
  | written id r =>
    rcases callback_eq_ok hstep with ⟨hlive, -, rfl⟩ | ⟨-, rfl⟩
    · exact (pieces_writeCallback hlive.2 r).changes
    · exact .refl
  | shutdown =>
    rcases h.shutdown_ok hcalm hstep with rfl | ⟨rfl, -⟩
    · exact .refl
    · exact changes_pendAll { s with shuttingDown := true } _
  | close =>
    have hstep : s.close = .ok s' := hstep
    rw [(h.close hcalm).1] at hstep
    cases hstep
    exact .refl

theorem Inv.changes_run (h : Inv s ∧ Settled s) (hi : ∀ i ∈ inputs, ∀ acts, i ≠ .accepted j acts)
    (hrun : machine.run s inputs = .ok t) : Changes (s.tcp j) (t.tcp j) := by
  induction inputs generalizing s with
  | nil =>
    cases hrun
    exact .refl
  | cons i inputs ih =>
    obtain ⟨s', o, hexec, hrest⟩ := Machine.run_cons_inv hrun
    have hchanges := h.1.changes_step h.2.reentered (exec_eq_ok.mp hexec) (hi i List.mem_cons_self)
    refine hchanges.trans (ih (run_step h hexec) (fun i' hi' => hi i' (.tail i hi')) hrest)

theorem failed_of_ne {e : Failure} (he : e ≠ .disconnect) : s.failed id e = s := by
  cases e with
  | disconnect => exact absurd rfl he
  | aborted => rfl
  | other => rfl

/-- **A read that fails without a disconnect is the last one of its connection**: none is started
again, as `receiving_` stays up. -/
theorem receives_nothing (h : machine.run (init d) inputs = .ok s) (hid : id ∈ s.connections)
    (hreads : 0 < (s.tcp id).reads) {e : Failure} (he : e ≠ .disconnect) {after : List Input}
    (hafter : ∀ i ∈ after, ∀ acts, i ≠ .accepted id acts)
    (hrun : machine.run s (.read id (.error e) :: after) = .ok t) :
    (t.tcp id).receiving = true ∧ (t.tcp id).reads = 0 := by
  obtain ⟨s', o, hexec, hrest⟩ := Machine.run_cons_inv hrun
  have hinv := run_inv h
  have hdeaf : (s'.tcp id).Deaf := by
    rcases callback_eq_ok (exec_eq_ok.mp hexec) with ⟨-, -, rfl⟩ | ⟨hnot, -⟩
    · unfold readCallback
      dsimp only
      rw [failed_of_ne he, call_tcp, update_tcp_self]
      exact (hinv.1.tcp id hid).deaf hreads
    · exact absurd ⟨hid, hreads⟩ hnot
  have hchanges := Inv.changes_run (run_step hinv hexec) hafter hrest
  exact all_keep (P := Tcp.Deaf) (fun _ _ => Tcp.Deaf.change) hchanges hdeaf

/-- **A write that fails without a disconnect is the last one of its connection**: nothing is sent
on it again, as `transmitting_` stays up. -/
theorem sends_nothing (h : machine.run (init d) inputs = .ok s) (hid : id ∈ s.connections)
    (hwrites : 0 < (s.tcp id).writes) {e : Failure} (he : e ≠ .disconnect) {after : List Input}
    (hafter : ∀ i ∈ after, ∀ acts, i ≠ .accepted id acts)
    (hrun : machine.run s (.written id (.error e) :: after) = .ok t) :
    (t.tcp id).transmitting = true ∧ (t.tcp id).writes = 0 := by
  obtain ⟨s', o, hexec, hrest⟩ := Machine.run_cons_inv hrun
  have hinv := run_inv h
  have hmute : (s'.tcp id).Mute := by
    rcases callback_eq_ok (exec_eq_ok.mp hexec) with ⟨-, -, rfl⟩ | ⟨hnot, -⟩
    · unfold writeCallback
      dsimp only
      rw [failed_of_ne he, call_tcp, update_tcp_self]
      exact (hinv.1.tcp id hid).mute hwrites
    · exact absurd ⟨hid, hwrites⟩ hnot
  have hchanges := Inv.changes_run (run_step hinv hexec) hafter hrest
  exact all_keep (P := Tcp.Mute) (fun _ _ => Tcp.Mute.change) hchanges hmute

theorem sends_nothing_other : ∃ s t,
    machine.run (init fun _ => []) [.accepted 1 [.send true]] = .ok s ∧
    machine.run s [.written 1 (.error .other), .read 1 (.ok [[.send true]])] = .ok t ∧
    (t.tcp 1).transmitting = true ∧ (t.tcp 1).writes = 0 := by
  refine ⟨_, _, rfl, rfl, @sends_nothing _ _ 1 [.accepted 1 [.send true]] _ rfl
    (List.mem_singleton_self 1) Nat.one_pos .other Failure.noConfusion
    [.read 1 (.ok [[.send true]])] ?_ rfl⟩
  exact List.forall_mem_singleton.mpr fun _ => Input.noConfusion

end HttpServer

end Camerasp.Http
