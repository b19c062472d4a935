import Camerasp.Http.Message
import Camerasp.Http.Wire

/-!
# Request and response, one after the other

A client that waits for each response before it sends the next request. The requests come in
packets, and so do the responses; with each request the client clears its receiver. The callbacks
of the connection run one at a time. `Reading` says where the server is in a request; `step_part`
and `step_last` what a packet does there.

Results:
* `run_exchange`: for each request the server sends one response, with what the site has for the uri
  of the request.
* `session_delivered`: **the client is given one response for each request, in their order, with
  the status and the body that the handlers gave**.
-/

namespace Camerasp.Http.Session

open Server (note note_eq note_rx Input)

/-! ## What a request is answered with -/

/-- What `Handlers::request` answers: the response and the body. -/
def answerTo (site : Site) (t : Tm) (uri : List Char) : TxResponse × List Char :=
  let url := UrlParser.ofUri uri
  if url.command = "img.jpg".toList then
    let body := site.getImage (Wire.imageNumber url)
    (Handlers.imageResponse t body.length, body)
  else
    match site.index with
    | some text => (Handlers.indexResponse t text.length, text)
    | none => (Handlers.notFoundResponse, "Index Not Found".toList)

/-- Its text. -/
def answerText (site : Site) (t : Tm) (uri : List Char) : List Char :=
  (answerTo site t uri).1.message (answerTo site t uri).2.length ++ (answerTo site t uri).2

theorem request_eq (env : Env) (w : Wire) : w.request env =
    w.send (answerTo env.site (w.now env) w.conn.rx.request.line.uri).1
      (answerTo env.site (w.now env) w.conn.rx.request.line.uri).2 := by
  unfold Wire.request answerTo
  dsimp only
  split
  · rfl
  · cases env.site.index <;> rfl

theorem isValid_answerTo (site : Site) (t : Tm) (uri : List Char) :
    (answerTo site t uri).1.isValid = true := by
  unfold answerTo
  dsimp only
  split
  · exact Handlers.isValid_image _ _
  · cases site.index with
    | some text => exact Handlers.isValid_index _ _
    | none => exact TxResponse.isValid_ofCode _

theorem setVersion_answerTo (site : Site) (t : Tm) (uri : List Char) :
    (answerTo site t uri).1.setVersion '1' '1' = (answerTo site t uri).1 := by
  unfold answerTo
  dsimp only
  split
  · rfl
  · cases site.index <;> rfl

/-! ## Where the server is in a request -/

/-- Between a request and its response: open, and no write in progress. -/
structure Idle (c : Connection) : Prop where
  connected : c.connected
  notPending : c.disconnectPending = false
  idle : c.transmitting = false

/-- `s` is still to come of the request with the head `q` and the body `t`. -/
inductive Reading (q : RxRequest) (t : List Char) : Connection → List Char → Prop
  | head {c code q₀ h} (hc : Idle c) (hrx : c.rx = { Receiver.cleared code with request := q₀ })
      (hv : q₀.valid = false) (hw : q₀.Wants h q) : Reading q t c (h ++ t)
  | body {c code v s} (hc : Idle c)
      (hrx : c.rx = { Receiver.cleared code with request := q, body := v })
      (hlen : v.length + s.length = t.length) : Reading q t c s

variable {env : Env} {w : Wire} {q : RxRequest} {t s b b' : List Char}

theorem Reading.idle (hr : Reading q t w.conn s) : Idle w.conn := by
  cases hr with
  | head hc => exact hc
  | body hc => exact hc

theorem Idle.note {c : Connection} (hc : Idle c) : Idle (note c) := by
  rcases note_eq c with h | h
  · rw [h]
    exact hc
  · rw [h]
    exact ⟨hc.connected, hc.notPending, hc.idle⟩

/-- The connection after a packet of which the receiver takes all. -/
def taken (c : Connection) (x : Receiver) (b : List Char) : Connection :=
  { note c with rx := x, received := (note c).received + b.length }

theorem Idle.taken {c : Connection} (hc : Idle c) (x : Receiver) (b : List Char) :
    Idle (taken c x b) :=
  ⟨hc.note.connected, hc.note.notPending, hc.note.idle⟩

/-- A packet of which the receiver takes all. -/
theorem step_read (hc : Idle w.conn) (hb : b ≠ []) {state : Rx} {x : Receiver}
    (hreceive : w.conn.rx.receive b = (state, x, [])) :
    Wire.step env w (.read b) = Wire.handle env { w with conn := taken w.conn x b } state := by
  cases b with
  | nil => exact absurd rfl hb
  | cons a b =>
    have hnil : ∀ w, Wire.receiveLoop env b.length w [] = w := by
      intro w
      cases b <;> rfl
    simp only [Wire.step, hc.connected, if_true, List.length_cons, Wire.receiveLoop, Wire.round,
      Wire.map, note_rx, hreceive, hnil]
    split <;> rfl

/-- **A packet that ends within the request** brings no response. -/
theorem step_part (hr : Reading q t w.conn (b ++ b')) (hq : q.Plain t.length) (hb : b ≠ [])
    (hb' : b' ≠ []) (hu : w.conn.Uncut b) :
    ∃ c', Wire.step env w (.read b) = { w with conn := c' } ∧ Reading q t c' b' := by
  have hpos := List.length_pos_of_ne_nil hb'
  have hidle := hr.idle
  generalize hs : b ++ b' = text at hr
  cases hr with
  | @head code q₀ h hc hrx hv hw =>
    have hu₀ : q₀.Uncut b := by simpa [hrx] using hu.1
    rcases Lib.cut_cases hs with ⟨u, rfl, rfl⟩ | ⟨h', hne, rfl, rfl⟩
    · obtain ⟨code', hreceive⟩ := (completes hrx hv hw rfl hu).receive
      rw [Receiver.receiveRest_body_part hq (by simp [Receiver.cleared]; omega)] at hreceive
      refine ⟨_, (step_read hc hb hreceive).trans rfl, ?_⟩
      exact @Reading.body _ _ _ code' u _ (hc.taken _ _) rfl (by simp)
    · obtain ⟨q₁, hreceive, hwants, hv₁⟩ := Receiver.receive_head_part (x := w.conn.rx)
        (by rw [hrx]; exact hv) (by rw [hrx]; exact hw) hne (by rw [hrx]; exact hu₀)
      refine ⟨_, (step_read hc hb hreceive).trans rfl, ?_⟩
      exact @Reading.head _ _ _ code _ _ (hc.taken _ _) (by simp [taken, hrx]) hv₁ hwants
  | @body code v _ hc hrx hlen =>
    subst hs
    rw [List.length_append] at hlen
    have hv : w.conn.rx.request.valid := by rw [hrx]; exact hq.valid
    have hreceive := Receiver.receive_of_valid (b := b) hv
    rw [Receiver.receiveRest_body_part (x := w.conn.rx) (by rw [hrx]; exact hq)
      (by rw [hrx]; dsimp only; omega)] at hreceive
    refine ⟨_, (step_read hc hb hreceive).trans rfl, ?_⟩
    exact @Reading.body _ _ _ code (v ++ b) _ (hc.taken _ _) (by simp [taken, hrx])
      (by rw [List.length_append]; omega)

/-- With the last packet the request is complete. -/
theorem receive_last (hr : Reading q t w.conn b) (hq : q.Plain t.length) (hhead : q.isHead = false)
    (htrace : q.isTrace = false) (hu : w.conn.Uncut b) :
    ∃ x, w.conn.rx.receive b = (.valid, x, []) ∧ x.request = q ∧ x.isHead = false := by
  have hwith : ∀ (x : Receiver) (v : List Char), x.request = q →
      (x.withBody v).request = q ∧ (x.withBody v).isHead = false := by
    intro x v hx
    have hnote : x.noteTrace = x := by simp [Receiver.noteTrace, hx, htrace]
    simp [Receiver.withBody, hnote, hx, hhead]
  cases hr with
  | @head code q₀ h hc hrx hv hw =>
    obtain ⟨code', hreceive⟩ := (completes hrx hv hw rfl hu).receive
    rw [Receiver.receiveRest_body hq (by simp [Receiver.cleared])] at hreceive
    exact ⟨_, hreceive, hwith _ _ rfl⟩
  | @body code v _ hc hrx hlen =>
    have hv : w.conn.rx.request.valid := by rw [hrx]; exact hq.valid
    have hreceive := Receiver.receive_of_valid (b := b) hv
    rw [Receiver.receiveRest_body (x := w.conn.rx) (by rw [hrx]; exact hq)
      (by rw [hrx]; exact hlen)] at hreceive
    exact ⟨_, hreceive, hwith _ _ (by rw [hrx])⟩

/-- The receiver is clear, and nothing is being sent. -/
structure Fresh (c : Connection) : Prop extends Idle c where
  cleared : ∃ code, c.rx = .cleared code

/-- Between a request and the next no field has been begun. -/
theorem Fresh.undivided {site : Site} {c : Connection} (hc : Fresh c) (b : List Char) :
    Undivided site c [.read b, .written] := by
  obtain ⟨code, hrx⟩ := hc.cleared
  refine .read _ ?_ (.written _ (.nil _))
  rw [Connection.Uncut, hrx]
  exact ⟨MessageHeaders.uncut_of_init rfl b, MessageHeaders.uncut_of_init rfl b⟩

/-- A response sent while no other is. -/
theorem send_idle {r : TxResponse} (hr : r.isValid = true) (hfree : w.conn.transmitting = false)
    (hhead : w.conn.rx.isHead = false) (hversion : w.versioned r = r) (body : List Char) :
    (w.send r body).out = w.out ++ (r.message body.length ++ body) := by
  unfold Wire.send Wire.text
  rw [if_pos hr, hversion]
  simp [hfree, hhead]

/-- **The last packet of a request brings the response**, and with the end of its write the
connection is ready for the next request. -/
theorem step_last {uri : List Char} (hr : Reading q t w.conn b) (hq : q.Plain t.length)
    (hhead : q.isHead = false) (htrace : q.isTrace = false) (hkeep : q.keepAlive)
    (hline : q.line.uri = uri ∧ q.line.majorVersion = '1' ∧ q.line.minorVersion = '1')
    (hb : b ≠ []) (hu : w.conn.Uncut b) :
    ∃ n, (Wire.run env w [.read b, .written]).out = w.out ++ answerText env.site (env.time n) uri ∧
      Fresh (Wire.run env w [.read b, .written]).conn := by
  have hc := hr.idle
  obtain ⟨x, hreceive, hx, hxhead⟩ := receive_last hr hq hhead htrace hu
  set w₁ : Wire := { w with conn := taken w.conn x b } with hw₁
  have hidle := hc.taken x b
  have hstep : Wire.step env w (.read b) = Wire.handle env w₁ .valid := step_read hc hb hreceive
  obtain ⟨huri, hmajor, hminor⟩ := hline
  have hreq : w₁.conn.rx.request = q := hx
  have hanswer : w₁.request env = w₁.send (answerTo env.site (w₁.now env) uri).1
      (answerTo env.site (w₁.now env) uri).2 := by rw [request_eq, hreq, huri]
  have hvalid := isValid_answerTo env.site (w₁.now env) uri
  have hversion : w₁.versioned (answerTo env.site (w₁.now env) uri).1 =
      (answerTo env.site (w₁.now env) uri).1 := by
    unfold Wire.versioned
    rw [hreq, hmajor, hminor, setVersion_answerTo]
  have hout := send_idle hvalid hidle.idle hxhead hversion
    (answerTo env.site (w₁.now env) uri).2
  rw [← hanswer] at hout
  obtain ⟨r, -, hconn⟩ := Connection.request_answers (c := w₁.conn) env.site
    (by rw [hreq]; exact hkeep)
  have hhandle : Wire.handle env w₁ .valid = (w₁.request env).map Connection.clear := by
    have hchunked : (w₁.request env).conn.rx.request.isChunked = false := by
      rw [Wire.request_conn, hconn]
      rfl
    simp [Wire.handle, hreq, htrace, hchunked]
  have hrun : Wire.run env w [.read b, .written] =
      Wire.step env ((w₁.request env).map Connection.clear) .written := by
    rw [← hhandle, ← hstep]
    rfl
  refine ⟨w₁.conn.log.length, ?_, ?_⟩
  · rw [hrun]
    exact hout
  · rw [hrun]
    have hpending : w₁.conn.disconnectPending = false := hidle.notPending
    simp only [Wire.step, Wire.map, Wire.request_conn, hconn, Connection.clear,
      Connection.answered, hpending, Bool.false_eq_true, if_false]
    exact ⟨⟨hidle.connected, rfl, rfl⟩, _, rfl⟩

/-! ## Sessions -/

/-- A request without chunks, other than HEAD and TRACE, within the limits of the server, in
packets. -/
structure Exchange where
  request : Request
  data : List Char
  packets : List (List Char)
  body_eq : request.body = .plain data
  within : request.Within
  hosted : ¬ request.hostless
  isLength : ∀ c ∈ combined request.fields "content-length", c.isDigit
  data_le : data.length ≤ maxBodySize
  notHead : request.method ≠ "HEAD".toList
  notTrace : request.method ≠ "TRACE".toList
  packet_ne : ∀ b ∈ packets, b ≠ []
  text_eq : packets.flatten = request.render

namespace Exchange

/-- What the server sees: the packets, and the end of the write of its response. -/
def inputs (e : Exchange) : List Input := e.packets.map Input.read ++ [.written]

theorem notTrace_received (e : Exchange) : e.request.received.isTrace = false :=
  decide_eq_false e.notTrace

theorem plain (e : Exchange) : e.request.received.Plain e.data.length := by
  refine (Request.plain_or_refused e.body_eq e.hosted).resolve_right fun h => ?_
  have hlen := h.length
  rw [Request.contentLength_digits e.body_eq e.isLength e.data_le, e.notTrace_received] at hlen
  have hle := e.data_le
  rcases hlen with hneg | hbig | ⟨htrace, -⟩
  · omega
  · omega
  · cases htrace

end Exchange

/-- **A request in packets.** -/
theorem run_packets {uri : List Char} (hq : q.Plain t.length) (hhead : q.isHead = false)
    (htrace : q.isTrace = false) (hkeep : q.keepAlive)
    (hline : q.line.uri = uri ∧ q.line.majorVersion = '1' ∧ q.line.minorVersion = '1')
    {packets : List (List Char)} (hne : ∀ b ∈ packets, b ≠ []) (hpackets : packets ≠ [])
    (hr : Reading q t w.conn packets.flatten)
    (hu : Undivided env.site w.conn (packets.map Input.read ++ [.written])) :
    ∃ n, (Wire.run env w (packets.map Input.read ++ [.written])).out =
        w.out ++ answerText env.site (env.time n) uri ∧
      Fresh (Wire.run env w (packets.map Input.read ++ [.written])).conn := by
  induction packets generalizing w with
  | nil => exact absurd rfl hpackets
  | cons b packets ih =>
    have hb : b ≠ [] := hne b (by simp)
    have hu₀ : w.conn.Uncut b := hu [] b (packets.map Input.read ++ [.written]) rfl
    rw [List.flatten_cons] at hr
    cases packets with
    | nil =>
      rw [List.flatten_nil, List.append_nil] at hr
      exact step_last hr hq hhead htrace hkeep hline hb hu₀
    | cons b' packets =>
      have hb' : b' ≠ [] := hne b' (by simp)
      obtain ⟨c', hstep, hr'⟩ := @step_part env _ _ _ _ _ hr hq hb (by simp [hb']) hu₀
      have htail : Undivided env.site c' ((b' :: packets).map Input.read ++ [.written]) := by
        have h := hu.tail
        rw [← Wire.step_conn, hstep] at h
        exact h
      have hrest := ih (w := { w with conn := c' }) (fun d hd => hne d (by simp [hd])) (by simp) hr'
        htail
      have hrun : Wire.run env w ((b :: b' :: packets).map Input.read ++ [.written]) =
          Wire.run env { w with conn := c' } ((b' :: packets).map Input.read ++ [.written]) := by
        rw [← hstep]
        rfl
      rw [hrun]
      exact hrest

/-- **One request of a session.** -/
theorem run_exchange (e : Exchange) (hw : Fresh w.conn)
    (hu : Undivided env.site w.conn e.inputs) :
    ∃ n, (Wire.run env w e.inputs).out =
        w.out ++ answerText env.site (env.time n) e.request.uri ∧
      Fresh (Wire.run env w e.inputs).conn := by
  obtain ⟨code, hrx⟩ := hw.cleared
  have htext : e.packets.flatten = e.request.head ++ e.data := by
    rw [e.text_eq, Request.render, e.body_eq]
    rfl
  have hpackets : e.packets ≠ [] := by
    intro hnil
    rw [hnil] at htext
    exact absurd htext.symm (by simp [(Request.wants e.within).ne_nil])
  refine run_packets (q := e.request.received) (t := e.data) e.plain (decide_eq_false e.notHead)
    e.notTrace_received e.request.keepAlive_received ⟨rfl, rfl, rfl⟩ e.packet_ne hpackets ?_ hu
  rw [htext]
  exact @Reading.head _ _ _ code _ _ hw.toIdle hrx rfl (Request.wants e.within)

/-- A request, what the handlers read when it comes, and the packets in which the client gets the
answer. -/
structure Visit where
  env : Env
  exchange : Exchange
  answer : List (List Char)

/-- The two ends of a connection. The client has none where its loop does not end. -/
structure Ends where
  wire : Wire
  client : Option Client

namespace Ends

/-- Before the first request. -/
def ready (code : Nat) : Ends := ⟨.ready code false, some .init⟩

/-- The client sends a request, the server answers it, and the client reads the answer. -/
def step (s : Ends) (v : Visit) : Ends :=
  ⟨Wire.run v.env s.wire v.exchange.inputs, s.client.bind fun c => c.send.run v.answer⟩

/-- The ends after a session. -/
def session (s : Ends) (vs : List Visit) : Ends := vs.foldl step s

/-- What the client reads is what the server has sent, and no packet, on either side, begins with a
line end in the middle of a field. -/
structure Carries (s : Ends) (v : Visit) : Prop where
  answer : s.wire.out ++ v.answer.flatten = (s.step v).wire.out
  request : Undivided v.env.site s.wire.conn v.exchange.inputs
  response : ∀ c ∈ s.client, c.send.Undivided v.answer

/-- A session all of whose packets are so. -/
def Carried : Ends → List Visit → Prop
  | _, [] => True
  | s, v :: vs => s.Carries v ∧ Carried (s.step v) vs

end Ends

/-! ## The answers as the client reads them -/

theorem length_toHeader_le {name value : List Char} (short : name.length + value.length ≤ 1000) :
    (fieldText name [' '] value).length ≤ maxLineLength := by
  rw [length_fieldText]
  simp only [List.length_cons, List.length_nil, maxLineLength]
  omega

/-- The line that `add_header` makes of a name and a value, as a field. -/
def field (name : String) (value : List Char)
    (isName : name.toList.all (fun c => c.isAlpha || c = '-') = true) (name_ne : name.toList ≠ [])
    (isValue : Inline value) (trimmed : value.head?.any isSpaceOrTab = false) : Field where
  name := name.toList
  blanks := [' ']
  value := value
  isName := fun c hc => isTokenChar_of_letter (List.all_eq_true.mp isName c hc)
  name_ne := name_ne
  isBlank := isSpaceOrTab_space
  isValue := isValue
  trimmed := trimmed

theorem taken_field {name : String} {value : List Char} {isName name_ne isValue trimmed}
    (short : name.toList.length + value.length ≤ 1000) :
    (field name value isName name_ne isValue trimmed).Taken where
  isName := List.all_eq_true.mp isName
  blanks_le := length_space_le
  line_le := length_toHeader_le short

theorem trimmed_toDecString (n : Nat) : (toDecString n).head?.any isSpaceOrTab = false := by
  obtain ⟨c, s, hcs⟩ := List.exists_cons_of_ne_nil (toDecString_ne_nil n)
  have hc : c.isDigit := isDigit_of_mem_toDecString (n := n) (by rw [hcs]; simp)
  rw [hcs]
  by_contra hblank
  rw [List.head?_cons, Option.any_some, Bool.not_eq_false, isSpaceOrTab_iff] at hblank
  rcases hblank with rfl | rfl <;> exact absurd hc (by decide)

def serverField : Field :=
  field "Server" "Via-httplib".toList rfl (by decide) (by decide) rfl

theorem short_dateText (t : Tm) : "Date".toList.length + (dateText t).length ≤ 1000 := by
  have hname : "Date".toList.length = 4 := rfl
  have := length_dateText_le t
  omega

def dateField (t : Tm) : Field :=
  field "Date" (dateText t) rfl (by decide) (inline_dateText t) (trimmed_dateText t)

def imageField : Field :=
  field "Content-Type" "image/jpeg".toList rfl (by decide) (by decide) rfl

def textField : Field :=
  field "Content-Type" "text/html".toList rfl (by decide) (by decide) rfl

def charsetField : Field :=
  field "charset" "utf-8".toList rfl (by decide) (by decide) rfl

theorem short_toDecString {n : Nat} (hn : n ≤ longMax) :
    "Content-Length".toList.length + (toDecString n).length ≤ 1000 := by
  have hname : "Content-Length".toList.length = 14 := rfl
  have := length_toDecString_le (n := n) (k := 10) (by decide) (lt_of_le_of_lt hn (by decide))
  omega

def lengthField (n : Nat) : Field :=
  field "Content-Length" (toDecString n) rfl contentLength_ne_nil (inline_toDecString n)
    (trimmed_toDecString n)

theorem taken_length {n : Nat} (hn : n ≤ longMax) : (lengthField n).Taken :=
  taken_field (short_toDecString hn)

/-- The fields of an answer, its Content-Length last. -/
structure Announces (fs : List Field) (n : Nat) : Prop where
  limited : Limited fs
  notChunked : (fs.filter fun f => f.key = "transfer-encoding".toList) = []
  length_le : n ≤ longMax
  length : (fs.filter fun f => f.key = "content-length".toList) = [lengthField n]

/-- **A response whose fields announce its body.** -/
theorem exists_answer {r : TxResponse} {fs : List Field} {body : List Char} (hr : r.Readable)
    (hheaders : r.headerString ++ r.addedHeader body.length = (fs.map Field.text).flatten)
    (hfs : Announces fs body.length) :
    ∃ a : Answer, a.response = r ∧ a.body = body ∧ a.text = r.message body.length := by
  have hcombined : combined fs "content-length" = toDecString body.length := by
    unfold combined
    rw [hfs.length]
    simp [lengthField, field]
  refine ⟨{
    response := r
    size := body.length
    fields := fs
    readable := hr
    headers_eq := hheaders
    limited := hfs.limited
    body := body
    body_le := hfs.length_le
    notChunked := by unfold combined; rw [hfs.notChunked]; rfl
    isLength := by rw [hcombined]; exact fun _ => isDigit_of_mem_toDecString
    length_ne := by rw [hcombined]; exact toDecString_ne_nil _
    length_eq := by rw [hcombined]; exact numeral_toDecString _ }, rfl, rfl, rfl⟩

/-- The fields of an image, or of the index file, are within the limits. -/
theorem announces_file (t : Tm) {content : List Field} {n : Nat} (hn : n ≤ longMax)
    (hcontent : content = [imageField] ∨ content = [textField, charsetField]) :
    Announces (serverField :: dateField t :: (content ++ [lengthField n])) n := by
  have hdate := length_dateText_le t
  have hsize : (toDecString n).length ≤ 10 :=
    length_toDecString_le (by decide) (lt_of_le_of_lt hn (by decide))
  have hserver : serverField.Taken := taken_field (by decide)
  have hdateTaken : (dateField t).Taken := taken_field (short_dateText t)
  have hlength := taken_length hn
  rcases hcontent with rfl | rfl
  · have himage : imageField.Taken := taken_field (by decide)
    refine ⟨⟨?_, ?_, Nat.le_of_ble_eq_true rfl⟩, rfl, hn, rfl⟩
    · simp [hserver, hdateTaken, himage, hlength]
    simp [Field.length, serverField, dateField, imageField, lengthField, field, maxHeaderLength]
    omega
  · have htext : textField.Taken := taken_field (by decide)
    have hcharset : charsetField.Taken := taken_field (by decide)
    refine ⟨⟨?_, ?_, Nat.le_of_ble_eq_true rfl⟩, rfl, hn, rfl⟩
    · simp [hserver, hdateTaken, htext, hcharset, hlength]
    simp [Field.length, serverField, dateField, textField, charsetField, lengthField, field,
      maxHeaderLength]
    omega

/-- What `message` adds to headers that have a Content-Length. -/
theorem addedHeader_of_contains {r : TxResponse} {n : Nat}
    (h : "Content-Length".toList <:+: r.headerString) : r.addedHeader n = [] := by
  have hcontains : contains r.headerString "Content-Length".toList = true := decide_eq_true h
  unfold TxResponse.addedHeader
  rw [hcontains]
  rfl

theorem addedHeader_notFound (n : Nat) :
    Handlers.notFoundResponse.addedHeader n = contentLengthHeader n := by
  simp [TxResponse.addedHeader, Handlers.notFoundResponse, TxResponse.ofCode, contains,
    contentPermitted]

theorem contentLength_infix (t : Tm) (content : List (String × List Char)) (n : Nat) :
    "Content-Length".toList <:+: headerLines (Handlers.fileHeaders t content n) := by
  refine ⟨headerLines (commonHeaders t ++ content), [':', ' '] ++ (toDecString n ++ crlf), ?_⟩
  simp [headerLines, Handlers.fileHeaders, toHeader]

/-- **What the site has for a uri**, as status and body. -/
def outcome (site : Site) (uri : List Char) : Nat × List Char :=
  let url := UrlParser.ofUri uri
  if url.command = "img.jpg".toList then (200, site.getImage (Wire.imageNumber url))
  else
    match site.index with
    | some text => (200, text)
    | none => (404, "Index Not Found".toList)

theorem readable_answerTo (site : Site) (t : Tm) (uri : List Char) :
    (answerTo site t uri).1.Readable := by
  unfold answerTo
  dsimp only
  split
  · exact .of_reasonPhrase rfl rfl (Nat.le_of_ble_eq_true rfl) rfl
  · cases site.index with
    | some text => exact .of_reasonPhrase rfl rfl (Nat.le_of_ble_eq_true rfl) rfl
    | none => exact .of_reasonPhrase rfl rfl (Nat.le_of_ble_eq_true rfl) rfl

/-- The headers of an answer, and what `message` adds, are fields that announce the body. -/
theorem announces_answerTo (site : Site) (t : Tm) (uri : List Char)
    (hsmall : (answerTo site t uri).2.length ≤ longMax) : ∃ fs : List Field,
    (answerTo site t uri).1.headerString ++
        (answerTo site t uri).1.addedHeader (answerTo site t uri).2.length =
      (fs.map Field.text).flatten ∧ Announces fs (answerTo site t uri).2.length := by
  unfold answerTo at hsmall ⊢
  dsimp only at hsmall ⊢
  split
  · rename_i hurl
    rw [if_pos hurl] at hsmall
    refine ⟨_, ?_, announces_file t hsmall (.inl rfl)⟩
    rw [addedHeader_of_contains, List.append_nil, Handlers.headerString_image]
    · rfl
    · rw [Handlers.headerString_image]
      exact contentLength_infix t _ _
  · rename_i hurl
    rw [if_neg hurl] at hsmall
    cases hindex : site.index with
    | some text =>
      simp only [hindex] at hsmall
      refine ⟨_, ?_, announces_file t hsmall (.inr rfl)⟩
      rw [addedHeader_of_contains, List.append_nil, Handlers.headerString_index]
      · rfl
      · rw [Handlers.headerString_index]
        exact contentLength_infix t _ _
    | none =>
      simp only [hindex] at hsmall
      have htaken := taken_length hsmall
      refine ⟨[lengthField "Index Not Found".toList.length], ?_, ⟨by simpa using htaken,
        Nat.le_of_ble_eq_true rfl, Nat.le_of_ble_eq_true rfl⟩, rfl, hsmall, rfl⟩
      simp only [addedHeader_notFound, List.map_cons, List.map_nil, List.flatten_cons,
        List.flatten_nil, List.append_nil]
      rfl

theorem outcome_eq (site : Site) (t : Tm) (uri : List Char) :
    ((answerTo site t uri).1.status, (answerTo site t uri).2) = outcome site uri := by
  unfold answerTo outcome
  dsimp only
  split
  · rfl
  · cases site.index <;> rfl

/-- **Every answer can be read**, unless its body is too long for the client's `long`. -/
theorem answer_readable (site : Site) (t : Tm) (uri : List Char)
    (hsmall : (outcome site uri).2.length ≤ longMax) :
    ∃ a : Answer, a.text ++ a.body = answerText site t uri ∧
      (a.response.status, a.body) = outcome site uri := by
  have houtcome := outcome_eq site t uri
  rw [← houtcome] at hsmall ⊢
  obtain ⟨fs, hheaders, hfs⟩ := announces_answerTo site t uri hsmall
  obtain ⟨a, hresponse, hbody, htext⟩ := exists_answer (readable_answerTo site t uri) hheaders hfs
  exact ⟨a, by rw [htext, hbody]; rfl, by rw [hresponse, hbody]⟩

/-- The status and the body that the client is given. -/
def seenOutcome : Delivery → Option (Nat × List Char)
  | .response q body => some (q.line.status, body)
  | _ => none

def Visit.outcome (v : Visit) : Nat × List Char :=
  Session.outcome v.env.site v.exchange.request.uri

namespace Ends

variable {s : Ends} {v : Visit}

/-- **One request of a session**: its answer is given to the client, and both ends are ready for the
next. -/
theorem step_delivered (hw : Fresh s.wire.conn) {log : List Delivery}
    (hclient : s.client = some ⟨.init, log⟩) (hsmall : v.outcome.2.length ≤ longMax)
    (hc : s.Carries v) :
    ∃ d, seenOutcome d = some v.outcome ∧ Fresh (s.step v).wire.conn ∧
      (s.step v).client = some ⟨.init, log ++ [d]⟩ := by
  obtain ⟨n, hout, hfresh⟩ := run_exchange v.exchange hw hc.request
  obtain ⟨a, htext, houtcome⟩ :=
    answer_readable v.env.site (v.env.time n) v.exchange.request.uri hsmall
  have hanswer : v.answer.flatten = a.text ++ a.body := by
    have hsent := hc.answer
    rw [step, hout, ← htext, List.append_right_inj] at hsent
    exact hsent
  have hx : Expects .init v.answer.flatten [.response a.received a.body] := by
    have hplain := Expects.plain rfl a.wants a.plain .done
    rw [List.append_nil] at hplain
    rw [hanswer]
    exact hplain
  have hrun := Client.run_expects (c := (⟨.init, log⟩ : Client).send) rfl hx
    (hc.response _ hclient)
  refine ⟨.response a.received a.body, congrArg some houtcome, hfresh, ?_⟩
  rw [step, hclient]
  exact hrun

/-- **A session from where both ends are ready.** -/
theorem session_ready (vs : List Visit) (hw : Fresh s.wire.conn) {log : List Delivery}
    (hclient : s.client = some ⟨.init, log⟩) (hsmall : ∀ v ∈ vs, v.outcome.2.length ≤ longMax)
    (hc : s.Carried vs) :
    ∃ ds, (s.session vs).client = some ⟨.init, log ++ ds⟩ ∧
      ds.map seenOutcome = vs.map fun v => some v.outcome := by
  induction vs generalizing s log with
  | nil => exact ⟨[], by simpa [session] using hclient, rfl⟩
  | cons v vs ih =>
    rw [List.forall_mem_cons] at hsmall
    obtain ⟨d, hd, hfresh, hnext⟩ := step_delivered hw hclient hsmall.1 hc.1
    obtain ⟨ds, hrest, hds⟩ := ih hfresh hnext hsmall.2 hc.2
    refine ⟨d :: ds, ?_, by rw [List.map_cons, List.map_cons, hd, hds]⟩
    rw [List.append_assoc] at hrest
    exact hrest

end Ends

/-- **The client is given one response for each request, in their order, with the status and the
body that the handlers gave.** -/
theorem session_delivered (code : Nat) (vs : List Visit)
    (hsmall : ∀ v ∈ vs, v.outcome.2.length ≤ longMax) (hc : (Ends.ready code).Carried vs) :
    ∃ ds, ((Ends.ready code).session vs).client = some ⟨.init, ds⟩ ∧
      ds.map seenOutcome = vs.map fun v => some v.outcome :=
  have hclient : (Ends.ready code).client = some ⟨.init, []⟩ := rfl
  Ends.session_ready vs ⟨⟨rfl, rfl, rfl⟩, code, rfl⟩ hclient hsmall hc

/-! ### A session of two requests -/

namespace Sample

theorem isUri_of_all {uri : List Char}
    (h : uri.all (fun c => !isEndOfLine c && !isSpaceOrTab c) = true) :
    ∀ c ∈ uri, ¬ isEndOfLine c ∧ ¬ isSpaceOrTab c := by simpa using h

theorem host_ne_nil : "Host".toList ≠ [] := by decide

def hostField : Field := field "Host" ['b'] rfl host_ne_nil (by decide) rfl

theorem within_host : Limited [hostField] := by
  refine ⟨fun f hf => ?_, by decide, by decide⟩
  rw [List.mem_singleton] at hf
  subst hf
  exact taken_field (by decide)

/-- A request without a body. -/
def getRequest (uri : List Char)
    (isUri : uri.all (fun c => !isEndOfLine c && !isSpaceOrTab c) = true)
    (uri_ne : uri ≠ []) : Request where
  method := "GET".toList
  uri := uri
  fields := [hostField]
  body := .plain []
  isMethod := List.all_eq_true.mp rfl
  method_ne := by decide
  isUri := isUri_of_all isUri
  uri_ne := uri_ne
  kept := by decide
  announced := ⟨.inl (by decide), .inl ⟨by decide, rfl⟩⟩
  trace := fun _ => rfl

/-- In one packet. -/
def get (uri : List Char) (isUri : uri.all (fun c => !isEndOfLine c && !isSpaceOrTab c) = true)
    (uri_ne : uri ≠ []) (uri_le : uri.length ≤ maxUriLength) : Exchange where
  request := getRequest uri isUri uri_ne
  data := []
  packets := [(getRequest uri isUri uri_ne).render]
  body_eq := rfl
  within := ⟨List.all_eq_true.mp rfl, (by decide : "GET".toList.length ≤ maxMethodLength), uri_le,
    within_host⟩
  hosted := (by decide : combined [hostField] "host" ≠ [])
  isLength := List.all_eq_true.mp
    (rfl : (combined [hostField] "content-length").all Char.isDigit = true)
  data_le := Nat.zero_le _
  notHead := (by decide : "GET".toList ≠ "HEAD".toList)
  notTrace := (by decide : "GET".toList ≠ "TRACE".toList)
  packet_ne := by simp [Request.render, Request.head, Request.requestLine]
  text_eq := by simp

def time : Tm := ⟨0, 1, 0, 2024, 0, 0, 0⟩

/-- A page of a site, the answer in one packet. -/
def visit (site : Site) (e : Exchange) : Visit :=
  ⟨⟨site, fun _ => time⟩, e, [answerText site time e.request.uri]⟩

def index : Exchange :=
  get "/index".toList rfl (List.cons_ne_nil _ _) (Nat.le_of_ble_eq_true rfl)

/-- Where both ends are ready, nothing is cut. -/
theorem carries {s : Ends} (hw : Fresh s.wire.conn) (site : Site)
    {e : Exchange} (he : e.packets = [e.request.render]) :
    s.Carries (visit site e) := by
  have hu : Undivided site s.wire.conn e.inputs := by
    rw [Exchange.inputs, he]
    exact hw.undivided _
  obtain ⟨n, hout, -⟩ := @run_exchange ⟨site, fun _ => time⟩ _ e hw hu
  refine ⟨?_, hu, fun c _ => Client.undivided_singleton rfl _⟩
  simp [Ends.step, visit, hout]

end Sample

/-- The index page, from a site that has it, and then has not. -/
theorem session_delivered_two :
    ∃ ds, ((Ends.ready 204).session [Sample.visit ⟨some ['x'], fun _ => []⟩ Sample.index,
        Sample.visit ⟨none, fun _ => []⟩ Sample.index]).client = some ⟨.init, ds⟩ ∧
      ds.map seenOutcome = [some (200, ['x']), some (404, "Index Not Found".toList)] := by
  have hfresh : Fresh (Ends.ready 204).wire.conn := ⟨⟨rfl, rfl, rfl⟩, 204, rfl⟩
  have hfirst := Sample.carries (s := .ready 204) hfresh ⟨some ['x'], fun _ => []⟩
    (e := Sample.index) rfl
  obtain ⟨-, -, hnext⟩ := @run_exchange ⟨⟨some ['x'], fun _ => []⟩, fun _ => Sample.time⟩ _
    Sample.index hfresh hfirst.request
  refine session_delivered 204 [Sample.visit ⟨some ['x'], fun _ => []⟩ Sample.index,
    Sample.visit ⟨none, fun _ => []⟩ Sample.index] ?_
    ⟨hfirst, Sample.carries hnext _ rfl, trivial⟩
  simp only [List.mem_cons, List.not_mem_nil, or_false, forall_eq_or_imp, forall_eq]
  exact ⟨by decide, by decide⟩

end Camerasp.Http.Session
