import Camerasp.Http.Receiver

/-!
# The connection and its handlers

`http_server::receive_handler`, `http_connection::send`, the part of `comms::connection` that
decides whether data is sent, and the `Handlers` that `main` registers
(`httpEventHandler.cpp`). A connection takes two kinds of inputs: a packet is read, and the write
in progress completes. That these callbacks run one at a time is a premise of everything here:
`main` runs the `io_service` on three threads and the server has no strand, so that a write may
complete while the packet that started it is still being dealt with.

The headers of a response are constants of the program without a line break, so
`response.is_valid()` is true; a response is its status and its body here. Transport errors are
left out.
-/

namespace Camerasp.Http

/-- `tx_response` and what is sent with it. -/
structure Response where
  status : Nat
  body : List Char
  deriving DecidableEq

/-- What happens on a connection. -/
inductive Event
  /-- the first byte of a request line is parsed, at this position of the stream -/
  | start (position : Nat)
  /-- a response is given to `send_data`, which sends it or drops it -/
  | response (response : Response) (sent : Bool)
  deriving DecidableEq

/-- `http_connection` with its `comms::connection`. `received` (the bytes parsed so far) and `log`
only record what happens. -/
structure Connection where
  rx : Receiver
  transmitting : Bool
  disconnectPending : Bool
  connected : Bool
  received : Nat
  log : List Event

namespace Connection

/-- A connection between two requests, whatever the last response was. -/
def ready (code : Nat) (transmitting : Bool) : Connection :=
  ⟨.cleared code, transmitting, false, true, 0, []⟩

/-- `rx().clear()`. -/
def clear (c : Connection) : Connection := { c with rx := c.rx.clear }

def shutdown (c : Connection) : Connection := { c with connected := false }

/-- `disconnect`: at once, or after the write in progress. -/
def disconnect (c : Connection) : Connection :=
  if c.transmitting then { c with disconnectPending := true } else c.shutdown

/-- `send_data`: dropped while a write is in progress. -/
def sendData (c : Connection) (r : Response) : Connection :=
  { c with transmitting := true, log := c.log ++ [.response r !c.transmitting] }

/-- `send`. -/
def send (c : Connection) (r : Response) : Connection :=
  let keepAlive := c.rx.request.keepAlive
  let r := if c.rx.isHead then { r with body := [] } else r
  let rx := if r.status = 100 then { c.rx with continueSent := true } else c.rx.clear
  let c := sendData { c with rx := rx } r
  if keepAlive then c else c.shutdown

/-- `send_response`. -/
def sendResponse (c : Connection) : Connection := c.send ⟨c.rx.responseCode, []⟩

end Connection

/-! ## The handlers -/

/-- `UrlParser`. -/
structure UrlParser where
  command : List Char
  queryKey : List Char
  queryValue : List Char

/-- The text after the first `d`, where there is one. -/
def after (d : Char) (s : List Char) : Option (List Char) :=
  match s.dropWhile (· ≠ d) with
  | [] => none
  | _ :: s => some s

/-- The constructor of `UrlParser`. -/
def UrlParser.ofUri (uri : List Char) : UrlParser :=
  let path := (after '/' uri).getD uri
  let command := path.takeWhile (· ≠ '?')
  match after '?' path with
  | none => ⟨command, [], []⟩
  | some rest =>
    let query := rest.takeWhile (· ≠ '&')
    ⟨command, query.takeWhile (· ≠ '='), (after '=' query).getD []⟩

/-- `isinteger`: the number `strtol` gives, if that takes all of the string. -/
def isInteger : List Char → Option Int
  | [] => none
  | c :: s =>
    let digits := if c.isDigit then c :: s else s
    let n := numeral 10 (digits.takeWhile Char.isDigit)
    let rest := digits.dropWhile Char.isDigit
    if !c.isDigit && c ≠ '-' && c ≠ '+' then none
    else if digits.takeWhile Char.isDigit = [] then none
    -- `*p == 0`, at the end of the string or at a NUL within
    else if rest.head?.any (· ≠ '\x00') then none
    else if c = '-' then some (max (-n) (-longMax - 1))
    else some (min n longMax)

/-- What the handlers read: the file `index.html`, and `camerasp::getImage`. -/
structure Site where
  index : Option (List Char)
  getImage : Int → List Char

namespace Handlers

/-- `response_body`. -/
def responseBody : List Char :=
  ("<html>\r\n" ++ "<head><title>Accepted</title></head>\r\n" ++
    "<body><h1>Does not support chunks</h1></body>\r\n" ++ "</html>\r\n").toList

def request (site : Site) (c : Connection) : Connection :=
  let url := UrlParser.ofUri c.rx.request.line.uri
  if url.command = "img.jpg".toList then
    let k := if url.queryKey = "prev".toList then (isInteger url.queryValue).getD 0 else 0
    c.send ⟨200, site.getImage k⟩
  else
    match site.index with
    | some text => c.send ⟨200, text⟩
    | none => c.send ⟨404, "Index Not Found".toList⟩

def respondToRequest (c : Connection) : Connection := c.send ⟨404, responseBody⟩

/-- Only the last chunk is answered. -/
def chunk (c : Connection) : Connection :=
  if c.rx.chunk.header.isLast then respondToRequest c else c

def maxLength : Nat := 1024

def expectContinue (c : Connection) : Connection :=
  c.send ⟨if c.rx.request.contentLength > maxLength then 413 else 100, []⟩

def invalidRequest (c : Connection) : Connection := c.sendResponse.disconnect

end Handlers

/-! ## The receive loop -/

namespace Server

/-- The first byte of a request line comes next. -/
def note (c : Connection) : Connection :=
  if !c.rx.request.valid && c.rx.request.line = .init then
    { c with log := c.log ++ [.start c.received] }
  else c

/-- The switch of `receive_handler`. -/
def handle (site : Site) (c : Connection) : Rx → Connection
  | .valid =>
    if !c.rx.request.isTrace then
      let c := Handlers.request site c
      if !c.rx.request.isChunked then c.clear else c
    -- `trace_enabled_` is false, so this case falls through to the next
    else (Handlers.invalidRequest c).clear
  | .invalid => (Handlers.invalidRequest c).clear
  | .expectContinue => Handlers.expectContinue c
  | .chunk =>
    let c := Handlers.chunk c
    if c.rx.chunk.header.isLast then c.clear else c
  | .incomplete => c

/-- A round of the loop of `receive_handler`. -/
def round (site : Site) (c : Connection) (b : List Char) : Rx × Connection × List Char :=
  let c := note c
  let (state, rx, rest) := c.rx.receive b
  (state, handle site { c with rx := rx, received := c.received + (b.length - rest.length) } state,
    rest)

/-- The loop of `receive_handler`; every round takes a byte. -/
def receiveLoop (site : Site) : Nat → Connection → List Char → Connection
  | 0, c, _ => c
  | _, c, [] => c
  | n + 1, c, b =>
    let (state, c, rest) := round site c b
    if state = .invalid then c else receiveLoop site n c rest

def receiveHandler (site : Site) (c : Connection) (b : List Char) : Connection :=
  receiveLoop site b.length c b

/-- What a connection waits for. -/
inductive Input
  | read (b : List Char)
  | written

/-- `read_callback` and `write_callback`. -/
def step (site : Site) (c : Connection) : Input → Connection
  | .read b => if c.connected then receiveHandler site c b else c
  | .written => if c.disconnectPending then c.shutdown else { c with transmitting := false }

def run (site : Site) (c : Connection) (inputs : List Input) : Connection :=
  inputs.foldl (step site) c

/-- The bytes read. -/
def bytes : List Input → List Char
  | [] => []
  | .read b :: inputs => b ++ bytes inputs
  | .written :: inputs => bytes inputs

end Server

/-! ## A response that is not 100 -/

namespace Connection

/-- The connection after a final response on a connection that is kept. -/
def answered (c : Connection) (r : Response) (code : Nat) (pending : Bool) : Connection :=
  { c with
    rx := .cleared code
    transmitting := true
    disconnectPending := pending
    log := c.log ++ [.response r !c.transmitting] }

variable {c : Connection}

theorem send_final {r : Response} (hk : c.rx.request.keepAlive) (hr : 200 ≤ r.status) :
    ∃ r', 200 ≤ r'.status ∧
      c.send r = c.answered r' c.rx.responseCode c.disconnectPending := by
  have hne : r.status ≠ 100 := by omega
  unfold send
  cases c.rx.isHead
  · refine ⟨r, hr, ?_⟩
    simp [hk, hne, sendData, answered, Receiver.clear]
  · refine ⟨{ r with body := [] }, hr, ?_⟩
    simp [hk, hne, sendData, answered, Receiver.clear]

theorem request_answers (site : Site) (hk : c.rx.request.keepAlive) :
    ∃ r, 200 ≤ r.status ∧
      Handlers.request site c = c.answered r c.rx.responseCode c.disconnectPending := by
  unfold Handlers.request
  dsimp only
  split
  · exact send_final hk (by simp)
  · split
    · exact send_final hk (by simp)
    · exact send_final hk (by simp)

/-- **A complete request is answered**, on a connection that is kept. -/
theorem handle_valid (site : Site) (hk : c.rx.request.keepAlive)
    (ht : c.rx.request.isTrace → 200 ≤ c.rx.responseCode) :
    ∃ r d, 200 ≤ r.status ∧ (c.rx.request.isTrace = false → d = c.disconnectPending) ∧
      Server.handle site c .valid = c.answered r c.rx.responseCode d := by
  cases htrace : c.rx.request.isTrace
  · obtain ⟨r, hr, heq⟩ := request_answers site hk
    refine ⟨r, c.disconnectPending, hr, fun _ => rfl, ?_⟩
    simp only [Server.handle, htrace, heq, Bool.not_false, if_true]
    split
    · rfl
    · rfl
  · obtain ⟨r, hr, heq⟩ := send_final (r := ⟨c.rx.responseCode, []⟩) hk (ht htrace)
    refine ⟨r, true, hr, fun h => absurd h (by simp), ?_⟩
    simp only [Server.handle, htrace, Bool.not_true, Bool.false_eq_true, if_false,
      Handlers.invalidRequest, sendResponse, heq]
    rfl

theorem handle_chunk (site : Site) (hl : c.rx.chunk.header.isLast = false) :
    Server.handle site c .chunk = c := by
  simp [Server.handle, Handlers.chunk, hl]

/-- **The last chunk is answered.** -/
theorem handle_lastChunk (site : Site) (hk : c.rx.request.keepAlive)
    (hl : c.rx.chunk.header.isLast) :
    ∃ r, 200 ≤ r.status ∧
      Server.handle site c .chunk = c.answered r c.rx.responseCode c.disconnectPending := by
  obtain ⟨r, hr, heq⟩ := send_final (r := ⟨404, Handlers.responseBody⟩) hk (by simp)
  refine ⟨r, hr, ?_⟩
  simp only [Server.handle, Handlers.chunk, hl, if_true, Handlers.respondToRequest, heq]
  split
  · rfl
  · rfl

/-- **A head that expects 100 gets it**, its request being small enough. -/
theorem handle_expectContinue (site : Site) (hk : c.rx.request.keepAlive)
    (hlen : c.rx.request.contentLength ≤ Handlers.maxLength) :
    Server.handle site c .expectContinue =
      { c with
        rx := { c.rx with continueSent := true }
        transmitting := true
        log := c.log ++ [.response ⟨100, []⟩ !c.transmitting] } := by
  have hsmall : ¬ c.rx.request.contentLength > Handlers.maxLength := by omega
  unfold Server.handle Handlers.expectContinue send
  simp [hk, hsmall, sendData]

end Connection

/-! ## Rounds of the loop -/

namespace Server

variable (site : Site) {c : Connection} {b rest : List Char} {n : Nat}

theorem note_eq (c : Connection) :
    note c = c ∨ note c = { c with log := c.log ++ [.start c.received] } := by
  unfold note
  split
  · exact .inr rfl
  · exact .inl rfl

@[simp] theorem note_rx (c : Connection) : (note c).rx = c.rx := by
  unfold note
  split <;> rfl

@[simp] theorem note_received (c : Connection) : (note c).received = c.received := by
  unfold note
  split <;> rfl

@[simp] theorem note_transmitting (c : Connection) : (note c).transmitting = c.transmitting := by
  unfold note
  split <;> rfl

theorem note_of_valid (hv : c.rx.request.valid) : note c = c := by
  unfold note
  simp [hv]

@[simp] theorem receiveLoop_nil (n : Nat) (c : Connection) : receiveLoop site n c [] = c := by
  cases n <;> rfl

/-- A round that goes on. -/
theorem receiveLoop_round {state : Rx} {rx : Receiver} (hb : b ≠ [])
    (hreceive : c.rx.receive b = (state, rx, rest)) (hstate : state ≠ .invalid) :
    receiveLoop site (n + 1) c b =
      receiveLoop site n (handle site
        { note c with rx := rx, received := (note c).received + (b.length - rest.length) } state)
        rest := by
  cases b with
  | nil => exact absurd rfl hb
  | cons a b => simp only [receiveLoop, round, note_rx, hreceive, hstate, if_false]

/-! ## The log only grows -/

theorem log_send (c : Connection) (r : Response) : c.log <+: (c.send r).log := by
  unfold Connection.send Connection.sendData Connection.shutdown
  dsimp only
  split <;> exact List.prefix_append _ _

theorem log_disconnect (c : Connection) : c.disconnect.log = c.log := by
  unfold Connection.disconnect Connection.shutdown
  split <;> rfl

theorem log_invalidRequest (c : Connection) : c.log <+: (Handlers.invalidRequest c).log := by
  unfold Handlers.invalidRequest
  rw [log_disconnect]
  exact log_send c _

theorem log_request (c : Connection) : c.log <+: (Handlers.request site c).log := by
  unfold Handlers.request
  dsimp only
  split
  · exact log_send c _
  · split <;> exact log_send c _

theorem log_chunk (c : Connection) : c.log <+: (Handlers.chunk c).log := by
  unfold Handlers.chunk
  split
  · exact log_send c _
  · exact List.prefix_refl _

theorem log_handle (c : Connection) (state : Rx) : c.log <+: (handle site c state).log := by
  cases state with
  | valid =>
    simp only [handle]
    split
    · split
      · exact log_request site c
      · exact log_request site c
    · exact log_invalidRequest c
  | invalid => exact log_invalidRequest c
  | expectContinue => exact log_send c _
  | chunk =>
    simp only [handle]
    split
    · exact log_chunk c
    · exact log_chunk c
  | incomplete => exact List.prefix_refl _

theorem log_note (c : Connection) : c.log <+: (note c).log := by
  rcases note_eq c with h | h
  · rw [h]
  · rw [h]
    exact List.prefix_append _ _

theorem log_round (c : Connection) (b : List Char) :
    (note c).log <+: (round site c b).2.1.log := by
  simp only [round]
  exact log_handle site { note c with
    rx := ((note c).rx.receive b).2.1
    received := (note c).received + (b.length - ((note c).rx.receive b).2.2.length) } _

theorem log_receiveLoop (n : Nat) (c : Connection) (b : List Char) :
    c.log <+: (receiveLoop site n c b).log := by
  induction n generalizing c b with
  | zero => exact List.prefix_refl _
  | succ n ih =>
    cases b with
    | nil => exact List.prefix_refl _
    | cons a b =>
      have hround := (log_note c).trans (log_round site c (a :: b))
      simp only [receiveLoop]
      generalize round site c (a :: b) = r at hround
      split
      · exact hround
      · exact hround.trans (ih r.2.1 r.2.2)

/-- What the first round notes stays. -/
theorem log_receiveLoop_succ (n : Nat) (c : Connection) (hb : b ≠ []) :
    (note c).log <+: (receiveLoop site (n + 1) c b).log := by
  cases b with
  | nil => exact absurd rfl hb
  | cons a b =>
    have hround := log_round site c (a :: b)
    simp only [receiveLoop]
    generalize round site c (a :: b) = r at hround
    split
    · exact hround
    · exact hround.trans (log_receiveLoop site n r.2.1 r.2.2)

/-- **The log only grows.** -/
theorem log_run (c : Connection) (inputs : List Input) : c.log <+: (run site c inputs).log := by
  induction inputs generalizing c with
  | nil => exact List.prefix_refl _
  | cons i inputs ih =>
    refine List.IsPrefix.trans ?_ (ih (step site c i))
    cases i with
    | read b =>
      unfold step
      dsimp only
      split
      · exact log_receiveLoop site _ _ _
      · exact List.prefix_refl _
    | written =>
      unfold step Connection.shutdown
      dsimp only
      split <;> exact List.prefix_refl _

end Server

end Camerasp.Http
