import Camerasp.Http.Answer
import Camerasp.Http.Exchange

/-!
# What goes over the wire (`http_connection::send`, `httpEventHandler.cpp`)

`Server` has a response as its status and its body. Here the handlers build the whole
`tx_response`, and `send` gives its text to `send_data`, which drops it while a write is in
progress. What becomes of `tx_header_` and `tx_body_` when they are assigned during a write is left
out.

Results:
* `isValid_image`, `isValid_index`, `isValid_chunk`: no header of a response is split, so that
  `send` refuses none.
* `run_conn`: without its texts, a run is a run of `Server`.
-/

namespace Camerasp.Http

/-- What the handlers read: the site, and the time of each response. -/
structure Env where
  site : Site
  time : Nat → Tm

/-- `http_connection` with what it sends: `out` records what has been given to the socket. -/
structure Wire where
  conn : Connection
  out : List Char

namespace Wire

/-- The connection changes, and nothing is sent. -/
def map (w : Wire) (f : Connection → Connection) : Wire := { w with conn := f w.conn }

/-- The response with the version of the request. -/
def versioned (w : Wire) (r : TxResponse) : TxResponse :=
  r.setVersion w.conn.rx.request.line.majorVersion w.conn.rx.request.line.minorVersion

/-- What is sent of a response: to a HEAD request, no body. -/
def text (w : Wire) (r : TxResponse) (body : List Char) : List Char :=
  (w.versioned r).message body.length ++ if w.conn.rx.isHead then [] else body

/-- `send`: of a response without a body, of one with its body, and of one with buffers. -/
def send (w : Wire) (r : TxResponse) (body : List Char) : Wire :=
  if r.isValid then
    { conn := w.conn.send ⟨r.status, body⟩
      out := if w.conn.transmitting then w.out else w.out ++ w.text r body }
  else w

/-- `send_response`. -/
def sendResponse (w : Wire) : Wire := w.send (.ofCode w.conn.rx.responseCode) []

end Wire

/-! ## The responses of the handlers -/

namespace Handlers

/-- `getGETResponse`. -/
def imageResponse (t : Tm) (size : Nat) : TxResponse :=
  ((((TxResponse.ofCode 200).addServerHeader.addDateHeader t).addHeader "Content-Type"
    "image/jpeg".toList).addContentLengthHeader size)

/-- The response of `request` with the file. -/
def indexResponse (t : Tm) (size : Nat) : TxResponse :=
  (((((TxResponse.ofCode 200).addServerHeader.addDateHeader t).addHeader "Content-Type"
    "text/html".toList).addHeader "charset" "utf-8".toList).addContentLengthHeader size)

/-- The response of `request` without the file. -/
def notFoundResponse : TxResponse := .ofCode 404

/-- The response of `respond_to_request`. -/
def chunkResponse (t : Tm) : TxResponse := (TxResponse.ofCode 404).addServerHeader.addDateHeader t

end Handlers

namespace Wire

/-- The time of the next response. -/
def now (env : Env) (w : Wire) : Tm := env.time w.conn.log.length

/-- The number of `img.jpg`. -/
def imageNumber (url : UrlParser) : Int :=
  if url.queryKey = "prev".toList then (isInteger url.queryValue).getD 0 else 0

def request (env : Env) (w : Wire) : Wire :=
  let url := UrlParser.ofUri w.conn.rx.request.line.uri
  if url.command = "img.jpg".toList then
    let body := env.site.getImage (imageNumber url)
    w.send (Handlers.imageResponse (w.now env) body.length) body
  else
    match env.site.index with
    | some text => w.send (Handlers.indexResponse (w.now env) text.length) text
    | none => w.send Handlers.notFoundResponse "Index Not Found".toList

def chunk (env : Env) (w : Wire) : Wire :=
  if w.conn.rx.chunk.header.isLast then
    w.send (Handlers.chunkResponse (w.now env)) Handlers.responseBody
  else w

def expectContinue (w : Wire) : Wire :=
  w.send (.ofCode (if w.conn.rx.request.contentLength > Handlers.maxLength then 413 else 100)) []

def invalidRequest (w : Wire) : Wire := w.sendResponse.map Connection.disconnect

/-! ## The receive loop -/

/-- The switch of `receive_handler`. -/
def handle (env : Env) (w : Wire) : Rx → Wire
  | .valid =>
    if !w.conn.rx.request.isTrace then
      let w := w.request env
      if !w.conn.rx.request.isChunked then w.map Connection.clear else w
    else w.invalidRequest.map Connection.clear
  | .invalid => w.invalidRequest.map Connection.clear
  | .expectContinue => w.expectContinue
  | .chunk =>
    let w := w.chunk env
    if w.conn.rx.chunk.header.isLast then w.map Connection.clear else w
  | .incomplete => w

/-- A round of the loop of `receive_handler`. -/
def round (env : Env) (w : Wire) (b : List Char) : Rx × Wire × List Char :=
  let w := w.map Server.note
  let (state, rx, rest) := w.conn.rx.receive b
  let taken := { w.conn with rx := rx, received := w.conn.received + (b.length - rest.length) }
  (state, handle env { w with conn := taken } state, rest)

def receiveLoop (env : Env) : Nat → Wire → List Char → Wire
  | 0, w, _ => w
  | _, w, [] => w
  | n + 1, w, b =>
    let (state, w, rest) := round env w b
    if state = .invalid then w else receiveLoop env n w rest

def step (env : Env) (w : Wire) : Server.Input → Wire
  | .read b => if w.conn.connected then receiveLoop env b.length w b else w
  | .written =>
    w.map fun c => if c.disconnectPending then c.shutdown else { c with transmitting := false }

def run (env : Env) (w : Wire) (inputs : List Server.Input) : Wire := inputs.foldl (step env) w

end Wire

/-! ## The headers are never split -/

/-- Header lines, as names and values. -/
def headerLines (hs : List (String × List Char)) : List Char :=
  (hs.map fun h => toHeader h.1 h.2).flatten

/-- The headers of every response that the handlers build. -/
def commonHeaders (t : Tm) : List (String × List Char) :=
  [("Server", "Via-httplib".toList), ("Date", dateText t)]

theorem splitLoop_headerLines {hs : List (String × List Char)}
    (h : ∀ p ∈ hs, Inline p.1.toList ∧ Inline p.2) (a b : Char) :
    splitLoop a b (headerLines hs) = false := by
  induction hs generalizing a b with
  | nil => rfl
  | cons p hs ih =>
    obtain ⟨hname, hvalue⟩ := h p (by simp)
    have hline : '\n' ∉ p.1.toList ++ ([':', ' '] ++ p.2) := by
      intro hmem
      have hinline : Inline (p.1.toList ++ ([':', ' '] ++ p.2)) := by
        simp only [inline_append, hname, hvalue, and_true, true_and]
        decide
      exact absurd (hinline _ hmem) (by decide)
    have htext : headerLines (p :: hs) =
        (p.1.toList ++ ([':', ' '] ++ p.2)) ++ (crlf ++ headerLines hs) := by
      simp [headerLines, toHeader]
    rw [htext, splitLoop_line (by simp) hline]
    exact ih (fun p' hp' => h p' (by simp [hp'])) _ _

/-- **Headers made by `add_header` from values without line ends are not split.** -/
theorem isValid_of_headerLines {r : TxResponse} {hs : List (String × List Char)}
    (hr : r.headerString = headerLines hs) (h : ∀ p ∈ hs, Inline p.1.toList ∧ Inline p.2) :
    r.isValid = true := by
  simp [TxResponse.isValid, areHeadersSplit, hr, splitLoop_headerLines h]

namespace Handlers

/-- The headers of an image, or of the index file. -/
def fileHeaders (t : Tm) (content : List (String × List Char)) (size : Nat) :
    List (String × List Char) :=
  commonHeaders t ++ (content ++ [("Content-Length", toDecString size)])

def imageContent : List (String × List Char) := [("Content-Type", "image/jpeg".toList)]

def indexContent : List (String × List Char) :=
  [("Content-Type", "text/html".toList), ("charset", "utf-8".toList)]

theorem headerString_image (t : Tm) (size : Nat) :
    (imageResponse t size).headerString = headerLines (fileHeaders t imageContent size) := by
  simp [imageResponse, headerLines, fileHeaders, commonHeaders, imageContent, TxResponse.ofCode,
    TxResponse.addServerHeader, TxResponse.addDateHeader, TxResponse.addHeader,
    TxResponse.addContentLengthHeader, serverHeader, dateHeader, contentLengthHeader]

theorem headerString_index (t : Tm) (size : Nat) :
    (indexResponse t size).headerString = headerLines (fileHeaders t indexContent size) := by
  simp [indexResponse, headerLines, fileHeaders, commonHeaders, indexContent, TxResponse.ofCode,
    TxResponse.addServerHeader, TxResponse.addDateHeader, TxResponse.addHeader,
    TxResponse.addContentLengthHeader, serverHeader, dateHeader, contentLengthHeader]

theorem headerString_chunk (t : Tm) :
    (chunkResponse t).headerString = headerLines (commonHeaders t) := by
  simp [chunkResponse, headerLines, commonHeaders, TxResponse.ofCode, TxResponse.addServerHeader,
    TxResponse.addDateHeader, serverHeader, dateHeader]

theorem inline_common (t : Tm) : ∀ p ∈ commonHeaders t, Inline p.1.toList ∧ Inline p.2 := by
  intro p hp
  simp only [commonHeaders, List.mem_cons, List.not_mem_nil, or_false] at hp
  rcases hp with rfl | rfl
  · exact ⟨by decide, by decide⟩
  · exact ⟨(by decide : Inline "Date".toList), inline_dateText t⟩

theorem inline_file {content : List (String × List Char)}
    (h : ∀ p ∈ content, Inline p.1.toList ∧ Inline p.2) (t : Tm) (size : Nat) :
    ∀ p ∈ fileHeaders t content size, Inline p.1.toList ∧ Inline p.2 := by
  intro p hp
  simp only [fileHeaders, List.mem_append, List.mem_singleton] at hp
  rcases hp with hp | hp | rfl
  · exact inline_common t p hp
  · exact h p hp
  · exact ⟨(by decide : Inline "Content-Length".toList), inline_toDecString size⟩

theorem isValid_image (t : Tm) (size : Nat) : (imageResponse t size).isValid = true :=
  isValid_of_headerLines (headerString_image t size) (inline_file (by decide) t size)

theorem isValid_index (t : Tm) (size : Nat) : (indexResponse t size).isValid = true :=
  isValid_of_headerLines (headerString_index t size) (inline_file (by decide) t size)

theorem isValid_chunk (t : Tm) : (chunkResponse t).isValid = true :=
  isValid_of_headerLines (headerString_chunk t) (inline_common t)

end Handlers

theorem TxResponse.isValid_ofCode (code : Nat) : (ofCode code).isValid = true := rfl

/-! ## A run without its texts -/

namespace Wire

variable (env : Env) {w : Wire}

theorem send_conn {r : TxResponse} (hr : r.isValid = true) (body : List Char) :
    (w.send r body).conn = w.conn.send ⟨r.status, body⟩ := by
  unfold send
  rw [if_pos hr]

theorem sendResponse_conn : w.sendResponse.conn = w.conn.sendResponse :=
  send_conn (TxResponse.isValid_ofCode _) []

theorem request_conn : (w.request env).conn = Handlers.request env.site w.conn := by
  unfold request Handlers.request
  dsimp only
  split
  · exact send_conn (Handlers.isValid_image _ _) _
  · cases env.site.index with
    | some text => exact send_conn (Handlers.isValid_index _ _) _
    | none => exact send_conn (TxResponse.isValid_ofCode _) _

theorem chunk_conn : (w.chunk env).conn = Handlers.chunk w.conn := by
  unfold chunk Handlers.chunk
  split
  · exact send_conn (Handlers.isValid_chunk _) _
  · rfl

theorem expectContinue_conn : w.expectContinue.conn = Handlers.expectContinue w.conn :=
  send_conn (TxResponse.isValid_ofCode _) []

theorem invalidRequest_conn : w.invalidRequest.conn = Handlers.invalidRequest w.conn := by
  unfold invalidRequest Handlers.invalidRequest map
  rw [← sendResponse_conn]

theorem handle_conn (state : Rx) :
    (handle env w state).conn = Server.handle env.site w.conn state := by
  cases state with
  | valid =>
    unfold handle Server.handle
    simp only [← request_conn, ← invalidRequest_conn]
    split
    · split <;> rfl
    · rfl
  | invalid =>
    unfold handle Server.handle
    simp only [← invalidRequest_conn]
    rfl
  | expectContinue => exact expectContinue_conn
  | chunk =>
    unfold handle Server.handle
    simp only [← chunk_conn env]
    split <;> rfl
  | incomplete => rfl

theorem receiveLoop_conn (n : Nat) (w : Wire) (b : List Char) :
    (receiveLoop env n w b).conn = Server.receiveLoop env.site n w.conn b := by
  induction n generalizing w b with
  | zero => rfl
  | succ n ih =>
    cases b with
    | nil => rfl
    | cons a b =>
      simp only [receiveLoop, Server.receiveLoop, round, Server.round, map]
      by_cases hinvalid : ((Server.note w.conn).rx.receive (a :: b)).1 = .invalid
      · simp only [hinvalid, if_true]
        exact handle_conn env _
      · simp only [hinvalid, if_false, ih, handle_conn]

theorem step_conn (w : Wire) (i : Server.Input) :
    (step env w i).conn = Server.step env.site w.conn i := by
  cases i with
  | read b =>
    unfold step Server.step
    dsimp only
    split
    · exact receiveLoop_conn env _ w b
    · rfl
  | written => rfl

/-- **Without its texts, a run is a run of the server.** -/
theorem run_conn (w : Wire) (inputs : List Server.Input) :
    (run env w inputs).conn = Server.run env.site w.conn inputs := by
  induction inputs generalizing w with
  | nil => rfl
  | cons i inputs ih =>
    change (run env (step env w i) inputs).conn = _
    rw [ih, step_conn]
    rfl

/-- A connection between two requests. -/
def ready (code : Nat) (transmitting : Bool) : Wire := ⟨.ready code transmitting, []⟩

end Wire

end Camerasp.Http
