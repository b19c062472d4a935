import Camerasp.Http.ResponseLine

/-!
# The client (`rx_response` and `response_receiver` in `response.hpp`, `http_client.hpp`)

`receive` takes a response, its body or one chunk from a buffer; `receive_handler` calls it until
the buffer is used up. The receiver is constructed with its default limits, `Limits.client`.

`Wants q s q'` says that from `q` the head of a response is complete with `s`.

Results:
* `RxResponse.Wants.parse` and `Wants.parse_part`: what `parse` does with a buffer of all of `s`,
  or of its first part.
-/

namespace Camerasp.Http

open Camerasp.Lib (Scanner)

/-- `rx_response`. -/
structure RxResponse where
  line : ResponseLine
  headers : MessageHeaders
  valid : Bool

namespace RxResponse

def init : RxResponse := ⟨.init, .init, false⟩

/-- `parse` after the status line. -/
def parseHeaders (q : RxResponse) (b : List Char) : Bool × RxResponse × List Char :=
  if q.headers.valid then (true, { q with valid := true }, b)
  else
    let (ok, headers, rest) := q.headers.parseIn .client b
    let q := { q with headers := headers }
    if !ok then (false, q, rest) else (true, { q with valid := true }, rest)

def parse (q : RxResponse) (b : List Char) : Bool × RxResponse × List Char :=
  if q.line.valid then q.parseHeaders b
  else
    let (ok, line, rest) := q.line.parse b
    let q := { q with line := line }
    if !ok then (false, q, rest) else q.parseHeaders rest

def contentLength (q : RxResponse) : Int := q.headers.contentLength

def isChunked (q : RxResponse) : Bool := q.headers.isChunked

end RxResponse

/-- `response_receiver`. -/
structure ResponseReceiver where
  response : RxResponse
  chunk : RxChunk
  body : List Char

namespace ResponseReceiver

/-- The constructor, and `clear`. -/
def init : ResponseReceiver := ⟨.init, .init, []⟩

/-- How long the body may become: without a Content-Length, as long as any. -/
def allowedLength (x : ResponseReceiver) (b : List Char) : Int :=
  if b ≠ [] && x.response.contentLength = 0 &&
      x.response.headers.find "content-length" = [] then Limits.client.bodySize
  else x.response.contentLength

/-- `receive` for a response that is not chunked, its head complete. -/
def receiveBody (x : ResponseReceiver) (b : List Char) : Rx × ResponseReceiver × List Char :=
  if x.response.contentLength < 0 then (.invalid, init, b)
  else
    let required := (x.allowedLength b).toNat - x.body.length
    let x := { x with body := x.body ++ b.take required }
    if (x.body.length : Int) = x.response.contentLength then (.valid, x, b.drop required)
    else (.incomplete, x, b.drop required)

/-- `receive` for a chunked response, its head complete. -/
def receiveChunk (x : ResponseReceiver) (responseParsed : Bool) (b : List Char) :
    Rx × ResponseReceiver × List Char :=
  let x := if x.chunk.valid then { x with chunk := .init } else x
  if responseParsed then (.valid, x, b)
  else
    let (ok, chunk, rest) := x.chunk.parseIn .client b
    let x := { x with chunk := chunk }
    if !ok && rest ≠ [] then (.invalid, init, rest)
    else if x.chunk.valid then (.chunk, x, rest)
    else (.incomplete, x, rest)

/-- `receive`, once the head is complete. -/
def receiveRest (x : ResponseReceiver) (responseParsed : Bool) (b : List Char) :
    Rx × ResponseReceiver × List Char :=
  if x.response.isChunked then x.receiveChunk responseParsed b else x.receiveBody b

def receive (x : ResponseReceiver) (b : List Char) : Rx × ResponseReceiver × List Char :=
  if x.response.valid then x.receiveRest false b
  else
    let (ok, response, rest) := x.response.parse b
    let x := { x with response := response }
    if ok then x.receiveRest true rest
    else if rest ≠ [] || response.line.fail then (.invalid, init, rest)
    else (.incomplete, x, rest)

end ResponseReceiver

/-- What the handlers of a client are given. -/
inductive Delivery
  | response (response : RxResponse) (body : List Char)
  | chunk (chunk : RxChunk)
  | invalid

/-- `http_client`. `delivered` records what its handlers are given. -/
structure Client where
  rx : ResponseReceiver
  delivered : List Delivery

namespace Client

def init : Client := ⟨.init, []⟩

def deliver (c : Client) (d : Delivery) : Client := { c with delivered := c.delivered ++ [d] }

/-- `rx_.clear()`. -/
def clear (c : Client) : Client := { c with rx := .init }

/-- `send`: whatever has been received of a response goes when a request is sent. -/
def send (c : Client) : Client := c.clear

/-- The switch of `receive_handler`. -/
def handle (c : Client) : Rx → Client
  | .valid =>
    let c := c.deliver (.response c.rx.response c.rx.body)
    if !c.rx.response.isChunked then c.clear else c
  | .chunk =>
    let c := c.deliver (.chunk c.rx.chunk)
    if c.rx.chunk.header.isLast then c.clear else c
  | .invalid => (c.deliver .invalid).clear
  | _ => c

/-- The loop of `receive_handler`. A round that takes no byte leaves the receiver as it is, and
the loop does not end: `none`. -/
def receiveLoop : Nat → Client → List Char → Option Client
  | _, c, [] => some c
  | 0, _, _ :: _ => none
  | n + 1, c, a :: b =>
    let (state, rx, rest) := c.rx.receive (a :: b)
    let c := handle { c with rx := rx } state
    if state = .invalid then some c else receiveLoop n c rest

def receiveHandler (c : Client) (b : List Char) : Option Client := receiveLoop b.length c b

/-- Packets that come while no request is sent. -/
def run (c : Client) (packets : List (List Char)) : Option Client :=
  packets.foldlM receiveHandler c

end Client

/-! ## A head in buffers -/

namespace RxResponse

/-- From `q` the head is complete with `s`, and then the response is `q'`. -/
inductive Wants : RxResponse → List Char → RxResponse → Prop
  | headers {q s h'} (hv : q.line.valid) (hf : q.line.fail = false) (hi : q.headers.valid = false)
      (ht : q.headers.tooLong = false) (hs : q.headers.Wants s h') :
      Wants q s { q with headers := h', valid := true }
  | line {q v l s q'} (hp : q.line.Pending)
      (hrun : ResponseLine.scanner.run q.line v = some l) (hne : v ≠ []) (hl : l.state = .valid)
      (hh : q.headers.field = .init)
      (hs : Wants { q with line := { l with valid := true } } s q') : Wants q (v ++ s) q'

/-- The buffer does not begin with a line end in the middle of a field. -/
def Uncut (q : RxResponse) (b : List Char) : Prop := q.headers.Uncut b

variable {q q' : RxResponse} {s : List Char}

theorem Wants.ne_nil (hw : Wants q s q') : s ≠ [] := by
  cases hw with
  | headers _ _ _ _ hs => exact hs.ne_nil
  | line _ _ hne => simp [hne]

theorem Wants.parseHeaders (hw : Wants q s q') (hv : q.line.valid) (hu : Uncut q s)
    (t : List Char) : q.parseHeaders (s ++ t) = (true, q', t) := by
  cases hw with
  | headers _ _ hi _ hs =>
    simp [RxResponse.parseHeaders, hi, hs.parseIn Limits.wide_client hu t]
  | line hp => exact absurd hv (by simp [hp.1])

/-- **A buffer that begins with the rest of the head.** -/
theorem Wants.parse (hw : Wants q s q') (hu : Uncut q s) (t : List Char) :
    q.parse (s ++ t) = (true, q', t) := by
  by_cases hv : q.line.valid
  · unfold RxResponse.parse
    rw [if_pos hv]
    exact hw.parseHeaders hv hu t
  · cases hw with
    | headers hv' => exact absurd hv' hv
    | @line _ v l s _ _ hrun _ hl hh hs =>
      have hscan : ResponseLine.scanner.scan q.line (v ++ (s ++ t)) = (true, l, s ++ t) :=
        Scanner.scan_of_run hrun (by simpa [ResponseLine.scanner] using hl) _
      have hstate : decide (l.state = .valid) = true := decide_eq_true hl
      unfold RxResponse.parse ResponseLine.parse
      rw [List.append_assoc]
      simp only [hv, hscan, hstate, Bool.false_eq_true, if_false, Bool.not_true]
      exact hs.parseHeaders rfl (MessageHeaders.uncut_of_init hh s) t

theorem Wants.parseHeaders_part {b b' : List Char} (hw : Wants q (b ++ b') q') (hb' : b' ≠ [])
    (hv : q.line.valid) (hu : Uncut q b) :
    ∃ q₁, q.parseHeaders b = (false, q₁, []) ∧ Wants q₁ b' q' ∧ q₁.valid = q.valid ∧
      q₁.line.fail = false := by
  generalize hs : b ++ b' = s at hw
  cases hw with
  | headers _ hf hi ht hs' =>
    subst hs
    obtain ⟨h₁, hparse, hwants, ht₁, hvalid⟩ := hs'.parseIn_part Limits.wide_client ht hb' hu
    refine ⟨{ q with headers := h₁ }, ?_, .headers hv hf (hvalid.trans hi) ht₁ hwants, rfl, hf⟩
    simp [RxResponse.parseHeaders, hi, hparse]
  | line hp => exact absurd hv (by simp [hp.1])

/-- **A buffer that ends within the head.** -/
theorem Wants.parse_part {b b' : List Char} (hw : Wants q (b ++ b') q') (hb' : b' ≠ [])
    (hu : Uncut q b) :
    ∃ q₁, q.parse b = (false, q₁, []) ∧ Wants q₁ b' q' ∧ q₁.valid = q.valid ∧
      q₁.line.fail = false := by
  by_cases hv : q.line.valid
  · unfold RxResponse.parse
    rw [if_pos hv]
    exact hw.parseHeaders_part hb' hv hu
  · generalize hs : b ++ b' = s at hw
    cases hw with
    | headers hv' => exact absurd hv' hv
    | @line _ v l s _ hp hrun _ hl hh hs' =>
      have hdone : ResponseLine.scanner.done l := by simpa [ResponseLine.scanner] using hl
      unfold RxResponse.parse ResponseLine.parse
      rcases Scanner.scan_cut hrun hdone hs with
        ⟨u, rfl, hscan⟩ | ⟨w, l₁, hnil, rfl, hscan, hdone₁, htaken, hrest⟩
      · have hstate : decide (l.state = .valid) = true := hdone
        obtain ⟨q₁, hparse, hrest⟩ :=
          hs'.parseHeaders_part hb' rfl (MessageHeaders.uncut_of_init hh u)
        refine ⟨q₁, ?_, hrest⟩
        simp only [hv, hscan, hstate, Bool.false_eq_true, if_false, Bool.not_true]
        exact hparse
      · have hstate : decide (l₁.state = .valid) = false := hdone₁
        have hp₁ : l₁.Pending := ResponseLine.run_pending htaken hp
        have hsame : { l₁ with valid := false } = l₁ := by rw [← hp₁.1]
        refine ⟨{ q with line := l₁ }, ?_, .line hp₁ hrest hnil hl hh hs', rfl, hp₁.2⟩
        simp only [hv, hscan, hstate, hsame, Bool.false_eq_true, if_false, Bool.not_true,
          Bool.not_false, if_true]

end RxResponse

end Camerasp.Http
