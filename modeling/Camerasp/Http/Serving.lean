import Camerasp.Http.Connections
import Camerasp.Http.Server

/-!
# The connection of the handlers within the server

`Server.run` is what becomes of one connection whose handlers are those of `main`. Here that
connection is one of an `HttpServer` whose other connections do as they please: `served` is what
happens on the server then, and `served_run` is that it still is what `Server.run` says.
-/

namespace Camerasp.Http

open Camerasp.Lib (Machine)

/-! ## What the handlers do -/

namespace Server

variable (site : Site)

/-- What `handle` does with the connection. -/
def actions (rx : Receiver) : Rx → List Action
  | .valid =>
    if !rx.request.isTrace then [.send rx.request.keepAlive]
    else [.send rx.request.keepAlive, .disconnect]
  | .invalid => [.send rx.request.keepAlive, .disconnect]
  | .expectContinue => [.send rx.request.keepAlive]
  | .chunk => if rx.chunk.header.isLast then [.send rx.request.keepAlive] else []
  | .incomplete => []

/-- What the handlers that `receiveLoop` calls do. -/
def requests : Nat → Connection → List Char → List (List Action)
  | 0, _, _ => []
  | _, _, [] => []
  | n + 1, c, b =>
    let acts := actions (c.rx.receive b).2.1 (c.rx.receive b).1
    let (state, c, rest) := round site c b
    (if state = .incomplete then [] else [acts]) ++
      if state = .invalid then [] else requests n c rest

/-- What happens on the server when `i` does on its connection `id`, which is `c`. A write does not
complete where none is in progress. -/
def inputs (id : Nat) (c : Connection) : Input → List HttpServer.Input
  | .read b => if c.connected then [.read id (.ok (requests site b.length c b))] else []
  | .written => if c.connected && c.transmitting then [.written id (.ok [])] else []

/-- What happens on the server, where its connection `id` is `c`: there, and elsewhere. -/
def served (id : Nat) : Connection → List (Input ⊕ HttpServer.Input) → List HttpServer.Input
  | _, [] => []
  | c, .inl i :: es => inputs site id c i ++ served id (step site c i) es
  | c, .inr i :: es => i :: served id c es

end Server

/-! ## One connection -/

/-- The operations that the flags speak of are in progress. -/
structure Tcp.Going (t : Tcp) : Prop where
  connected : t.connected = true
  reads : t.reads = t.receiving.toNat
  writes : t.writes = t.transmitting.toNat

/-- The flags are those of the connection. -/
structure Tcp.Alike (t : Tcp) (c : Connection) : Prop extends t.Going where
  transmitting : t.transmitting = c.transmitting
  pending : t.disconnectPending = c.disconnectPending
  pending_transmitting : c.disconnectPending = true → c.transmitting = true

namespace Tcp

variable {t : Tcp} {c : Connection}

theorem Alike.enableReception (h : t.Alike c) : t.enableReception.Alike c := by
  unfold Tcp.enableReception
  split
  · exact h
  · rename_i hidle
    rw [Bool.not_eq_true] at hidle
    refine ⟨⟨h.connected, ?_, h.writes⟩, h.transmitting, h.pending, h.pending_transmitting⟩
    rw [h.reads, hidle]
    rfl

theorem receiving_enableReception (t : Tcp) : t.enableReception.receiving = true := by
  unfold Tcp.enableReception
  split
  · assumption
  · rfl

theorem Alike.sendData (h : t.Alike c) : t.sendData.Alike { c with transmitting := true } := by
  unfold Tcp.sendData
  split
  · rename_i hbusy
    exact ⟨h.toGoing, hbusy, h.pending, fun _ => rfl⟩
  · rename_i hidle
    rw [Bool.not_eq_true] at hidle
    unfold writeData
    rw [if_pos h.connected]
    refine ⟨⟨h.connected, h.reads, ?_⟩, h.connected, h.pending, fun _ => rfl⟩
    rw [h.writes, hidle, h.connected]
    rfl

/-- The flags are all that counts. -/
theorem Alike.congr (h : t.Alike c) {c' : Connection}
    (htransmitting : c'.transmitting = c.transmitting)
    (hpending : c'.disconnectPending = c.disconnectPending) : t.Alike c' where
  toGoing := h.toGoing
  transmitting := h.transmitting.trans htransmitting.symm
  pending := h.pending.trans hpending.symm
  pending_transmitting := by
    rw [htransmitting, hpending]
    exact h.pending_transmitting

end Tcp

namespace HttpServer

/-- The connection `id` of the server is `c`. -/
structure Shows (id : Nat) (s : HttpServer) (c : Connection) : Prop where
  nodup : s.httpConnections.Nodup
  mem_iff : id ∈ s.httpConnections ↔ c.connected = true
  alike : c.connected = true → (s.tcp id).Alike c

variable {s s' t : HttpServer} {id j : Nat} {c c' : Connection}

theorem Shows.congr (h : Shows id s c) (hconnected : c'.connected = c.connected)
    (htransmitting : c'.transmitting = c.transmitting)
    (hpending : c'.disconnectPending = c.disconnectPending) : Shows id s c' where
  nodup := h.nodup
  mem_iff := h.mem_iff.trans (by rw [hconnected])
  alike hc := (h.alike (hconnected ▸ hc)).congr htransmitting hpending

/-- A connection that has ended. -/
theorem Shows.ended (hn : s.httpConnections.Nodup) (hid : id ∉ s.httpConnections)
    (hc : c.connected = false) : Shows id s c where
  nodup := hn
  mem_iff := iff_of_false hid (by simp [hc])
  alike h := absurd h (by simp [hc])

theorem shows_disconnected (hn : s.httpConnections.Nodup) (hc : c.connected = false) :
    Shows id (s.disconnected id) c := by
  refine .ended ?_ ?_ hc
  · rw [disconnected_httpConnections]
    exact hn.erase id
  · rw [disconnected_httpConnections]
    exact hn.not_mem_erase

theorem Shows.update (h : Shows id s c) {f : Tcp → Tcp} (hconnected : c'.connected = c.connected)
    (hf : (s.tcp id).Alike c → (f (s.tcp id)).Alike c') : Shows id (s.update id f) c' where
  nodup := h.nodup
  mem_iff := h.mem_iff.trans (by rw [hconnected])
  alike hc := by
    rw [update_tcp_self]
    exact hf (h.alike (hconnected ▸ hc))

theorem Shows.call (h : Shows id s c) (call : Call) : Shows id (s.call call) c :=
  ⟨h.nodup, h.mem_iff, h.alike⟩

theorem Shows.send (h : Shows id s c) (r : Response) :
    Shows id (s.act id (.send c.rx.request.keepAlive)) (c.send r) := by
  have hsent : Shows id (s.update id Tcp.sendData) { c with transmitting := true } :=
    h.update rfl Tcp.Alike.sendData
  unfold act actBy Connection.send
  dsimp only
  cases c.rx.request.keepAlive
  · exact shows_disconnected hsent.nodup rfl
  · exact hsent.congr rfl rfl rfl

theorem Shows.disconnect (h : Shows id s c) :
    Shows id (s.act id .disconnect) c.disconnect := by
  unfold act actBy Connection.disconnect
  dsimp only
  by_cases hc : c.connected = true
  · rw [(h.alike hc).transmitting]
    by_cases htransmitting : c.transmitting = true
    · rw [if_pos htransmitting, if_pos htransmitting]
      refine h.update rfl fun ht => ?_
      exact ⟨⟨ht.connected, ht.reads, ht.writes⟩, ht.transmitting, rfl, fun _ => htransmitting⟩
    · rw [if_neg htransmitting, if_neg htransmitting]
      exact shows_disconnected h.nodup rfl
  · have hid := h.mem_iff.not.mpr hc
    rw [Bool.not_eq_true] at hc
    -- the flags of a connection that has ended may differ, but it stays so
    have hended : ∀ c' : Connection, c'.connected = false →
        Shows id (s.update id fun t => { t with disconnectPending := true }) c' ∧
          Shows id (s.shutdownConnection id) c' := fun c' hc' =>
      ⟨.ended h.nodup hid hc', shows_disconnected h.nodup hc'⟩
    split <;> split
    · exact (hended _ (by exact hc)).1
    · exact (hended _ rfl).1
    · exact (hended _ (by exact hc)).2
    · exact (hended _ rfl).2

/-! ## A callback of the connection -/

/-- The connection that the handler of a round gets. -/
def parsed (c : Connection) (b : List Char) : Connection :=
  { Server.note c with
    rx := (c.rx.receive b).2.1
    received := (Server.note c).received + (b.length - (c.rx.receive b).2.2.length) }

theorem round_eq (site : Site) (c : Connection) (b : List Char) : Server.round site c b =
    ((c.rx.receive b).1, Server.handle site (parsed c b) (c.rx.receive b).1,
      (c.rx.receive b).2.2) := by
  unfold Server.round parsed
  dsimp only
  rw [Server.note_rx]

theorem Shows.parsed (h : Shows id s c) (b : List Char) : Shows id s (parsed c b) := by
  have hnote : Shows id s (Server.note c) := by
    rcases Server.note_eq c with heq | heq
    · rwa [heq]
    · rw [heq]
      exact h.congr rfl rfl rfl
  exact hnote.congr rfl rfl rfl

theorem request_eq_send (site : Site) (c : Connection) :
    ∃ r, Handlers.request site c = c.send r := by
  unfold Handlers.request
  dsimp only
  split
  · exact ⟨_, rfl⟩
  · split <;> exact ⟨_, rfl⟩

theorem Shows.invalidRequest (h : Shows id s c) :
    Shows id ([.send c.rx.request.keepAlive, .disconnect].foldl (fun s a => s.act id a) s)
      (Handlers.invalidRequest c).clear :=
  (h.send _).disconnect.congr rfl rfl rfl

theorem Shows.chunk (h : Shows id s c) :
    Shows id ((Server.actions c.rx .chunk).foldl (fun s a => s.act id a) s) (Handlers.chunk c) := by
  unfold Server.actions Handlers.chunk
  dsimp only
  split
  · exact h.send _
  · exact h

/-- **The handlers do to the connection what `actions` says.** -/
theorem Shows.handle (h : Shows id s c) (site : Site) (state : Rx) :
    Shows id ((Server.actions c.rx state).foldl (fun s a => s.act id a) s)
      (Server.handle site c state) := by
  cases state with
  | valid =>
    unfold Server.actions Server.handle
    dsimp only
    split
    · obtain ⟨r, hr⟩ := request_eq_send site c
      rw [hr]
      have hsend := h.send r
      split
      · exact hsend.congr rfl rfl rfl
      · exact hsend
    · exact h.invalidRequest
  | invalid => exact h.invalidRequest
  | expectContinue => exact h.send _
  | chunk =>
    unfold Server.handle
    dsimp only
    split
    · exact h.chunk.congr rfl rfl rfl
    · exact h.chunk
  | incomplete => exact h

/-- The requests of a round: none, where no handler is called. -/
theorem Shows.round (h : Shows id s c) (site : Site) (b : List Char) :
    Shows id ((if (c.rx.receive b).1 = .incomplete then []
        else [Server.actions (c.rx.receive b).2.1 (c.rx.receive b).1]).foldl
      (fun s acts => s.handler id (.request id) acts) s)
      (Server.handle site (Http.HttpServer.parsed c b) (c.rx.receive b).1) := by
  have hparsed := h.parsed b
  split
  · rename_i hincomplete
    rw [hincomplete]
    exact hparsed
  · exact (hparsed.call _).handle site _

/-- **A packet.** -/
theorem Shows.receiveLoop (h : Shows id s c) (site : Site) (n : Nat) (b : List Char) :
    Shows id ((Server.requests site n c b).foldl (fun s acts => s.handler id (.request id) acts) s)
      (Server.receiveLoop site n c b) := by
  induction n generalizing s c b with
  | zero => exact h
  | succ n ih =>
    cases b with
    | nil => exact h
    | cons a b =>
      have hround := h.round site (a :: b)
      unfold Server.requests Server.receiveLoop
      rw [round_eq]
      dsimp only
      rw [List.foldl_append]
      by_cases hinvalid : (c.rx.receive (a :: b)).1 = .invalid
      · rw [if_pos hinvalid, if_pos hinvalid]
        exact hround
      · rw [if_neg hinvalid, if_neg hinvalid]
        exact ih hround _

theorem Alike.received {t : Tcp} (h : t.Alike c) (hreceiving : t.receiving = true) :
    Tcp.Alike { t with reads := t.reads - 1, receiving := false } c := by
  refine ⟨⟨h.connected, ?_, h.writes⟩, h.transmitting, h.pending, h.pending_transmitting⟩
  dsimp only
  rw [h.reads, hreceiving]
  rfl

/-- Between callbacks: a read is in progress. -/
structure Waits (id : Nat) (s : HttpServer) (c : Connection) : Prop extends Shows id s c where
  receiving : c.connected = true → (s.tcp id).receiving = true

theorem Shows.waits (h : Shows id s c) : Waits id (s.update id Tcp.enableReception) c where
  toShows := h.update rfl Tcp.Alike.enableReception
  receiving _ := by
    rw [update_tcp_self]
    exact Tcp.receiving_enableReception _

theorem Waits.readCallback (h : Waits id s c) (hc : c.connected = true) (site : Site)
    (b : List Char) :
    Waits id (s.readCallback id (.ok (Server.requests site b.length c b)))
      (Server.receiveHandler site c b) := by
  have hread : Shows id
      (s.update id fun t => { t with reads := t.reads - 1, receiving := false }) c :=
    h.toShows.update rfl fun ht => Alike.received ht (h.receiving hc)
  unfold HttpServer.readCallback readHandler received
  dsimp only
  rw [update_update, if_pos (by exact h.mem_iff.mpr hc)]
  exact (hread.waits.toShows.receiveLoop site _ b).waits

theorem Waits.writeCallback (h : Waits id s c) (site : Site) (hc : c.connected = true)
    (htransmitting : c.transmitting = true) :
    Waits id (s.writeCallback id (.ok [])) (Server.step site c .written) := by
  have halike := h.alike hc
  unfold HttpServer.writeCallback Server.step
  dsimp only
  rw [update_tcp_self]
  dsimp only
  rw [halike.pending]
  split
  · refine ⟨shows_disconnected (by exact h.nodup) rfl, fun hconnected => ?_⟩
    cases hconnected
  · unfold writeHandler
    dsimp only
    rw [update_update, if_pos (by exact h.mem_iff.mpr hc)]
    rename_i hpending
    have hsent : Shows id
        (s.update id fun t => { t with writes := t.writes - 1, transmitting := false })
        { c with transmitting := false } := by
      refine h.toShows.update rfl fun ht => ⟨⟨ht.connected, ht.reads, ?_⟩, rfl, ht.pending, ?_⟩
      · dsimp only
        rw [ht.writes, ht.transmitting, htransmitting]
        rfl
      · exact fun hp => absurd hp hpending
    have hreceiving : ((s.update id fun t =>
        { t with writes := t.writes - 1, transmitting := false }).tcp id).receiving = true := by
      rw [update_tcp_self]
      exact h.receiving hc
    exact ⟨hsent.call _, fun _ => hreceiving⟩

/-! ## The other connections -/

/-- Something happens on another connection. -/
def Input.Elsewhere (id : Nat) : Input → Prop
  | .accepted j _ | .read j _ | .written j _ => j ≠ id
  | .shutdown | .close => False

/-- Nothing has happened to the connection `id`. -/
structure Apart (id : Nat) (s s' : HttpServer) : Prop where
  tcp : s'.tcp id = s.tcp id
  mem_iff : id ∈ s'.httpConnections ↔ id ∈ s.httpConnections

theorem Apart.refl (s : HttpServer) : Apart id s s := ⟨rfl, Iff.rfl⟩

theorem Apart.call (h : Apart id s s') (call : Call) : Apart id s (s'.call call) :=
  ⟨h.tcp, h.mem_iff⟩

theorem Apart.update (h : Apart id s s') (hj : j ≠ id) (f : Tcp → Tcp) :
    Apart id s (s'.update j f) :=
  ⟨(update_tcp_of_ne f hj.symm).trans h.tcp, h.mem_iff⟩

theorem Apart.disconnected (h : Apart id s s') (hj : j ≠ id) : Apart id s (s'.disconnected j) where
  tcp := (disconnected_tcp_of_ne hj.symm).trans h.tcp
  mem_iff := by
    rw [disconnected_httpConnections, List.mem_erase_of_ne hj.symm]
    exact h.mem_iff

theorem Apart.pieces (h : Apart id s s') (hj : j ≠ id) (hpieces : Pieces j s' t) :
    Apart id s t := by
  refine all_keep (fun _ _ hs hpiece => ?_) hpieces h
  cases hpiece with
  | change => exact hs.update hj _
  | disconnected => exact hs.disconnected hj
  | call => exact hs.call _

theorem apart_accept (hj : j ≠ id) (acts : List Action) : Apart id s (s.accept j acts) := by
  have hnew : Apart id s (s.update j fun _ => Tcp.init.handshake) := (Apart.refl s).update hj _
  by_cases hmem : j ∈ s.httpConnections
  · have hsame : Apart id s ((s.update j fun _ => Tcp.init.handshake).connected j acts) := by
      unfold HttpServer.connected
      rw [if_pos (by exact hmem)]
      exact hnew
    exact ⟨hsame.tcp, hsame.mem_iff⟩
  · rw [accept_eq hmem]
    have hinserted : Apart id s { s.update j fun _ => Tcp.init.handshake with
        httpConnections := s.httpConnections ++ [j] } := by
      refine ⟨hnew.tcp, ?_⟩
      simp [hj.symm]
    have hhandled := hinserted.pieces hj (pieces_handler _ j (.connected j) acts)
    exact ⟨hhandled.tcp, hhandled.mem_iff⟩

/-- **What happens elsewhere leaves a connection alone.** -/
theorem apart_step {i : Input} (hi : i.Elsewhere id) (hstep : s.step i = .ok s') :
    Apart id s s' := by
  cases i with
  | accepted j acts =>
    rcases callback_eq_ok hstep with ⟨-, -, rfl⟩ | ⟨-, rfl⟩
    · exact (apart_accept hi acts).call _
    · exact .refl s
  | read j r =>
    rcases callback_eq_ok hstep with ⟨hlive, -, rfl⟩ | ⟨-, rfl⟩
    · exact ((Apart.refl s).pieces hi (pieces_readCallback hlive.2 r)).call _
    · exact .refl s
  | written j r =>
    rcases callback_eq_ok hstep with ⟨hlive, -, rfl⟩ | ⟨-, rfl⟩
    · exact ((Apart.refl s).pieces hi (pieces_writeCallback hlive.2 r)).call _
    · exact .refl s
  | shutdown => cases hi
  | close => cases hi

theorem Waits.apart (h : Waits id s c) (hn : s'.httpConnections.Nodup) (ha : Apart id s s') :
    Waits id s' c where
  nodup := hn
  mem_iff := ha.mem_iff.trans h.mem_iff
  alike hc := by
    rw [ha.tcp]
    exact h.alike hc
  receiving hc := by
    rw [ha.tcp]
    exact h.receiving hc

/-! ## Runs -/

theorem Waits.call (h : Waits id s c) (call : Call) : Waits id (s.call call) c :=
  ⟨h.toShows.call call, h.receiving⟩

/-- A connection is accepted. -/
theorem Inv.waits_accept (h : Inv s ∧ Settled s) (hopen : s.accepting = true)
    (hid : id ∉ s.connections) (code : Nat) :
    Waits id (s.accept id []) (.ready code false) := by
  have hmem : id ∉ s.httpConnections := fun hmem => hid (h.1.owned id hmem)
  have haccept := accept_eq hmem []
  have htcp : (s.accept id []).tcp id = Tcp.init.handshake := by
    rw [haccept]
    change (s.update id fun _ => Tcp.init.handshake).tcp id = _
    exact update_tcp_self _
  have hhttp : (s.accept id []).httpConnections = s.httpConnections ++ [id] := by
    rw [haccept]
    rfl
  refine ⟨⟨(h.1.accept hopen hid (h.2.phase id) []).http_nodup, ?_, fun _ => ?_⟩, fun _ => ?_⟩
  · rw [hhttp]
    simp [Connection.ready]
  · rw [htcp]
    exact ⟨⟨rfl, rfl, rfl⟩, rfl, rfl, fun hpending => by cases hpending⟩
  · rw [htcp]
    rfl

/-- A callback that goes well. -/
theorem callback_eq {p : Prop} [Decidable p] (hp : p) (ht : Calm t) :
    (if p then t.finish else .ok s) = .ok (t.call .returned) :=
  (if_pos hp).trans ht.finish

theorem exec_of_step {i : Input} (hstep : s.step i = .ok s') : machine.exec s i = .ok (s', ()) :=
  exec_eq_ok.mpr hstep

theorem run_singleton {i : Input} (hstep : s.step i = .ok s') : machine.run s [i] = .ok s' :=
  Machine.run_cons_ok (exec_of_step hstep) []

theorem Waits.step_read (h : Waits id s c) (hinv : Inv s) (hcalm : Calm s) (site : Site)
    (b : List Char) :
    ∃ t, machine.run s (Server.inputs site id c (.read b)) = .ok t ∧
      Waits id t (Server.step site c (.read b)) := by
  unfold Server.inputs Server.step
  dsimp only
  by_cases hc : c.connected = true
  · rw [if_pos hc, if_pos hc]
    have hreads : 0 < (s.tcp id).reads := by
      rw [(h.alike hc).reads, h.receiving hc]
      exact Nat.one_pos
    have hid := hinv.owned id (h.mem_iff.mpr hc)
    exact ⟨_, run_singleton (callback_eq ⟨hid, hreads⟩
      (hcalm.pieces (pieces_readCallback hreads _))),
      (h.readCallback hc site b).call _⟩
  · rw [if_neg hc, if_neg hc]
    exact ⟨s, rfl, h⟩

theorem Waits.step_written (h : Waits id s c) (hinv : Inv s) (hcalm : Calm s) (site : Site) :
    ∃ t, machine.run s (Server.inputs site id c .written) = .ok t ∧
      Waits id t (Server.step site c .written) := by
  unfold Server.inputs
  dsimp only
  by_cases hc : c.connected = true
  · have halike := h.alike hc
    by_cases htransmitting : c.transmitting = true
    · rw [if_pos (by rw [hc, htransmitting]; rfl)]
      have hwrites : 0 < (s.tcp id).writes := by
        rw [halike.writes, halike.transmitting, htransmitting]
        exact Nat.one_pos
      have hid := hinv.owned id (h.mem_iff.mpr hc)
      exact ⟨_, run_singleton (callback_eq ⟨hid, hwrites⟩
        (hcalm.pieces (pieces_writeCallback hwrites _))),
        (h.writeCallback site hc htransmitting).call _⟩
    · rw [Bool.not_eq_true] at htransmitting
      rw [htransmitting, Bool.and_false, if_neg Bool.false_ne_true]
      refine ⟨s, rfl, ?_⟩
      have hpending : ¬ c.disconnectPending = true := fun hp => by
        rw [halike.pending_transmitting hp] at htransmitting
        cases htransmitting
      unfold Server.step
      dsimp only
      rw [if_neg hpending]
      exact ⟨h.toShows.congr rfl htransmitting.symm rfl, h.receiving⟩
  · have hid := h.mem_iff.not.mpr hc
    rw [Bool.not_eq_true] at hc
    rw [hc, Bool.false_and, if_neg Bool.false_ne_true]
    refine ⟨s, rfl, ?_⟩
    have hended : (Server.step site c .written).connected = false := by
      unfold Server.step
      dsimp only
      split
      · rfl
      · exact hc
    exact ⟨.ended h.nodup hid hended, fun h => by rw [hended] at h; cases h⟩

/-- **A step of the connection is one of the server**, or none. -/
theorem Waits.step (h : Waits id s c) (hinv : Inv s) (hcalm : Calm s) (site : Site)
    (i : Server.Input) :
    ∃ t, machine.run s (Server.inputs site id c i) = .ok t ∧ Waits id t (Server.step site c i) := by
  cases i with
  | read b => exact h.step_read hinv hcalm site b
  | written => exact h.step_written hinv hcalm site

theorem Kept.run {inputs : List Input} (h : Kept s) (hrun : machine.run s inputs = .ok t) :
    Kept t :=
  Machine.run_invariant (fun _ _ _ _ h hexec => h.step (exec_eq_ok.mp hexec)) hrun h

/-- **A connection is served as `Server.run` says, whatever happens on the others.** -/
theorem Waits.run (h : Waits id s c) (hkept : Kept s) (site : Site)
    {es : List (Server.Input ⊕ Input)} (hes : ∀ i, .inr i ∈ es → i.Elsewhere id) :
    ∃ t, machine.run s (Server.served site id c es) = .ok t ∧
      Waits id t (Server.run site c (es.filterMap Sum.getLeft?)) := by
  induction es generalizing s c with
  | nil => exact ⟨s, rfl, h⟩
  | cons e es ih =>
    have hes' : ∀ i, .inr i ∈ es → i.Elsewhere id := fun i hi => hes i (List.mem_cons_of_mem e hi)
    cases e with
    | inl i =>
      obtain ⟨s', hrun, hwaits⟩ := h.step hkept.toInv hkept.toCalm site i
      obtain ⟨t, hrest, hdone⟩ := ih hwaits (hkept.run hrun) hes'
      exact ⟨t, (Machine.run_append hrun _).trans hrest, hdone⟩
    | inr i =>
      have hi := hes i List.mem_cons_self
      have hs : ¬ (i = .shutdown ∧ s.Hasty) := fun hs => by
        rw [hs.1] at hi
        exact hi
      obtain ⟨s', hstep, -⟩ := hkept.step_calm hkept.toCalm hs
      have hkept' := hkept.step hstep
      have hwaits := h.apart hkept'.http_nodup (apart_step hi hstep)
      obtain ⟨t, hrest, hdone⟩ := ih hwaits hkept' hes'
      exact ⟨t, (Machine.run_cons_ok (exec_of_step hstep) _).trans hrest, hdone⟩

/-- **A connection that the server accepts is served as `Server.run` says.** In every run, whatever
happens on the other connections in between, its packets and completed writes leave it, and its
place in `http_connections_`, as they leave the one connection of `Server.run`. The server is
neither closed nor shut down in between, and the disconnected handler sends at most. -/
theorem served_run {d : List Call → List Action} (hd : Gentle d) {before : List Input}
    (h : machine.run (init d) before = .ok s) (hopen : s.accepting = true)
    (hid : id ∉ s.connections) (site : Site) (code : Nat) {es : List (Server.Input ⊕ Input)}
    (hes : ∀ i, .inr i ∈ es → i.Elsewhere id) :
    ∃ t, machine.run s (.accepted id [] :: Server.served site id (.ready code false) es) = .ok t ∧
      Shows id t (Server.run site (.ready code false) (es.filterMap Sum.getLeft?)) := by
  have hkept := run_kept hd h
  have hstep : s.step (.accepted id []) = .ok ((s.accept id []).call .returned) :=
    callback_eq ⟨hopen, hid⟩ (hkept.toCalm.accept id [])
  have hwaits := (Inv.waits_accept ⟨hkept.toInv, hkept.toSettled⟩ hopen hid code).call .returned
  obtain ⟨t, hrun, hdone⟩ := hwaits.run (hkept.step hstep) site hes
  exact ⟨t, (Machine.run_cons_ok (exec_of_step hstep) _).trans hrun, hdone.toShows⟩

/-- A request in two packets; in between the other connection ends. -/
theorem served_run_two : ∃ s t, machine.run (init fun _ => []) [.accepted 1 []] = .ok s ∧
    machine.run s (.accepted 2 [] :: Server.served ⟨none, fun _ => []⟩ 2 (.ready 200 false)
      [.inl (.read "GET ".toList), .inr (.read 1 (.error .disconnect)),
        .inl (.read "/ HTTP/1.1\r\nHost: h\r\n\r\n".toList)]) = .ok t ∧
    Shows 2 t (Server.run ⟨none, fun _ => []⟩ (.ready 200 false)
      [.read "GET ".toList, .read "/ HTTP/1.1\r\nHost: h\r\n\r\n".toList]) := by
  have hid : (2 : Nat) ∉ [1] := by decide
  obtain ⟨t, ht⟩ := @served_run _ 2 (fun _ => []) (fun _ _ => by simp) [.accepted 1 []] rfl rfl hid
    ⟨none, fun _ => []⟩ 200
    [.inl (.read "GET ".toList), .inr (.read 1 (.error .disconnect)),
      .inl (.read "/ HTTP/1.1\r\nHost: h\r\n\r\n".toList)] (by simp [Input.Elsewhere])
  exact ⟨_, t, rfl, ht⟩

end HttpServer

end Camerasp.Http
