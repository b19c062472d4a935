import Camerasp.Http.Chunk
import Camerasp.Http.RequestLine

/-!
# The receiver (`rx_request` and `request_receiver` in `request.hpp`)

`receive` takes a request, its body or one chunk from a buffer. A chunk handler is registered, so
`concatenate_chunks_` is false throughout; `translate_head_` is true.

`RxRequest.Wants` and `RxRequest.Refuses` are for the head of a request what `RxChunk.Wants` and
`RxChunk.Refuses` are for a chunk.
-/

namespace Camerasp.Http

open Camerasp.Lib (Scanner)

/-- `rx_request`. -/
structure RxRequest where
  line : RequestLine
  headers : MessageHeaders
  valid : Bool

namespace RxRequest

def init : RxRequest := ⟨.init, .init, false⟩

/-- `parse` after the request line. -/
def parseHeaders (q : RxRequest) (b : List Char) : Bool × RxRequest × List Char :=
  if q.headers.valid then (true, { q with valid := true }, b)
  else
    let (ok, headers, rest) := q.headers.parse b
    let q := { q with headers := headers }
    if !ok then (false, q, rest) else (true, { q with valid := true }, rest)

def parse (q : RxRequest) (b : List Char) : Bool × RxRequest × List Char :=
  if q.line.valid then q.parseHeaders b
  else
    let (ok, line, rest) := q.line.parse b
    let q := { q with line := line }
    if !ok then (false, q, rest) else q.parseHeaders rest

def contentLength (q : RxRequest) : Int := q.headers.contentLength

def isChunked (q : RxRequest) : Bool := q.headers.isChunked

def keepAlive (q : RxRequest) : Bool := !q.line.isHttp10OrEarlier && !q.headers.closeConnection

def missingHostHeader (q : RxRequest) : Bool :=
  q.line.majorVersion = '1' && q.line.minorVersion = '1' && q.headers.find "host" = []

def expectContinue (q : RxRequest) : Bool := !q.line.isHttp10OrEarlier && q.headers.expectContinue

def isHead (q : RxRequest) : Bool := q.line.method = "HEAD".toList

def isTrace (q : RxRequest) : Bool := q.line.method = "TRACE".toList

end RxRequest

/-- `Rx`. -/
inductive Rx
  | invalid
  | expectContinue
  | incomplete
  | valid
  | chunk
  deriving DecidableEq

/-- `request_receiver`. -/
structure Receiver where
  request : RxRequest
  chunk : RxChunk
  body : List Char
  responseCode : Nat
  continueSent : Bool
  isHead : Bool

namespace Receiver

/-- The receiver as `clear` leaves it: the response code stays. -/
def cleared (code : Nat) : Receiver := ⟨.init, .init, [], code, false, false⟩

def clear (x : Receiver) : Receiver := cleared x.responseCode

/-- What the receiver answers to a request that does not parse. -/
def parseErrorCode : RequestState → Nat
  | .errorMethodLength => 501
  | .errorUriLength => 414
  | _ => 400

def reject (code : Nat) (b : List Char) : Rx × Receiver × List Char :=
  (.invalid, cleared code, b)

/-- `receive`, from "determine whether the body is complete" on. -/
def completeBody (x : Receiver) (b : List Char) : Rx × Receiver × List Char :=
  if (x.body.length : Int) = x.request.contentLength then
    let x := { x with isHead := x.request.isHead }
    if x.isHead then
      (.valid, { x with request.line.method := "GET".toList }, b)
    else (.valid, x, b)
  else (.incomplete, x, b)

/-- A TRACE request without a body is complete, but is to be answered with 405. -/
def noteTrace (x : Receiver) : Receiver :=
  if x.request.isTrace then { x with responseCode := 405 } else x

/-- `receive` for a request that is not chunked, its head complete. -/
def receiveBody (x : Receiver) (b : List Char) : Rx × Receiver × List Char :=
  let contentLength := x.request.contentLength
  if x.request.isTrace && contentLength ≠ 0 then reject 400 b
  else
    let x := x.noteTrace
    if contentLength < 0 then reject 400 b
    else if contentLength > maxBodySize then reject 413 b
    else if contentLength = 0 && b ≠ [] && x.request.headers.find "content-length" = [] then
      reject 411 b
    else
      let required := contentLength.toNat - x.body.length
      completeBody { x with body := x.body ++ b.take required } (b.drop required)

/-- `receive` for a chunked request, its head complete. -/
def receiveChunk (x : Receiver) (requestParsed : Bool) (b : List Char) :
    Rx × Receiver × List Char :=
  let x := if x.chunk.valid then { x with chunk := .init } else x
  if requestParsed then
    if x.request.expectContinue && !x.continueSent then
      (.expectContinue, { x with responseCode := 100 }, b)
    else (.valid, x, b)
  else
    let (ok, chunk, rest) := x.chunk.parse b
    let x := { x with chunk := chunk }
    if !ok && rest ≠ [] then reject 400 rest
    else if x.chunk.valid then (.chunk, x, rest)
    else (.incomplete, x, rest)

/-- `receive`, once the head is complete. -/
def receiveRest (x : Receiver) (requestParsed : Bool) (b : List Char) :
    Rx × Receiver × List Char :=
  if x.request.missingHostHeader then (.invalid, { x with responseCode := 400 }, b)
  else if x.request.isChunked then x.receiveChunk requestParsed b
  else x.receiveBody b

def receive (x : Receiver) (b : List Char) : Rx × Receiver × List Char :=
  if x.request.valid then x.receiveRest false b
  else
    let (ok, request, rest) := x.request.parse b
    let x := { x with request := request }
    if ok then x.receiveRest true rest
    else if rest ≠ [] || request.line.fail then
      reject (parseErrorCode request.line.state) rest
    else (.incomplete, x, rest)

end Receiver

/-! ## A head in buffers -/

namespace RxRequest

/-- From `q` the head is complete with `s`, and then the request is `q'`. -/
inductive Wants : RxRequest → List Char → RxRequest → Prop
  | headers {q s h'} (hv : q.line.valid) (hf : q.line.fail = false) (hi : q.headers.valid = false)
      (hs : q.headers.Wants s h') : Wants q s { q with headers := h', valid := true }
  | line {q v l s q'} (hp : q.line.Pending)
      (hrun : RequestLine.scanner.run q.line v = some l) (hne : v ≠ []) (hl : l.state = .valid)
      (hh : q.headers.field = .init)
      (hs : Wants { q with line := { l with valid := true } } s q') : Wants q (v ++ s) q'

/-- The buffer does not begin with a line end in the middle of a field. -/
def Uncut (q : RxRequest) (b : List Char) : Prop := q.headers.Uncut b

variable {q q' : RxRequest} {s : List Char}

theorem Wants.ne_nil (hw : Wants q s q') : s ≠ [] := by
  cases hw with
  | headers _ _ _ hs => exact hs.ne_nil
  | line _ _ hne => simp [hne]

theorem Wants.parseHeaders (hw : Wants q s q') (hv : q.line.valid) (hu : Uncut q s)
    (t : List Char) : q.parseHeaders (s ++ t) = (true, q', t) := by
  cases hw with
  | headers _ _ hi hs => simp [RxRequest.parseHeaders, hi, hs.parse hu t]
  | line hp => exact absurd hv (by simp [hp.1])

/-- **A buffer that begins with the rest of the head.** -/
theorem Wants.parse (hw : Wants q s q') (hu : Uncut q s) (t : List Char) :
    q.parse (s ++ t) = (true, q', t) := by
  by_cases hv : q.line.valid
  · unfold RxRequest.parse
    rw [if_pos hv]
    exact hw.parseHeaders hv hu t
  · cases hw with
    | headers hv' => exact absurd hv' hv
    | @line _ v l s _ _ hrun _ hl hh hs =>
      have hscan : RequestLine.scanner.scan q.line (v ++ (s ++ t)) = (true, l, s ++ t) :=
        Scanner.scan_of_run hrun (by simpa [RequestLine.scanner] using hl) _
      have hstate : decide (l.state = .valid) = true := decide_eq_true hl
      unfold RxRequest.parse RequestLine.parse
      rw [List.append_assoc]
      simp only [hv, hscan, hstate, Bool.false_eq_true, if_false, Bool.not_true]
      exact hs.parseHeaders rfl (MessageHeaders.uncut_of_init hh s) t

theorem Wants.parseHeaders_part {b b' : List Char} (hw : Wants q (b ++ b') q') (hb' : b' ≠ [])
    (hv : q.line.valid) (hu : Uncut q b) :
    ∃ q₁, q.parseHeaders b = (false, q₁, []) ∧ Wants q₁ b' q' ∧ q₁.valid = q.valid ∧
      q₁.line.fail = false := by
  generalize hs : b ++ b' = s at hw
  cases hw with
  | headers _ hf hi hs' =>
    subst hs
    obtain ⟨h₁, hparse, hwants, hvalid⟩ := hs'.parse_part hb' hu
    refine ⟨{ q with headers := h₁ }, ?_, .headers hv hf (hvalid.trans hi) hwants, rfl, hf⟩
    simp [RxRequest.parseHeaders, hi, hparse]
  | line hp => exact absurd hv (by simp [hp.1])

/-- **A buffer that ends within the head.** -/
theorem Wants.parse_part {b b' : List Char} (hw : Wants q (b ++ b') q') (hb' : b' ≠ [])
    (hu : Uncut q b) :
    ∃ q₁, q.parse b = (false, q₁, []) ∧ Wants q₁ b' q' ∧ q₁.valid = q.valid ∧
      q₁.line.fail = false := by
  by_cases hv : q.line.valid
  · unfold RxRequest.parse
    rw [if_pos hv]
    exact hw.parseHeaders_part hb' hv hu
  · generalize hs : b ++ b' = s at hw
    cases hw with
    | headers hv' => exact absurd hv' hv
    | @line _ v l s _ hp hrun _ hl hh hs' =>
      have hdone : RequestLine.scanner.done l := by simpa [RequestLine.scanner] using hl
      unfold RxRequest.parse RequestLine.parse
      rcases Scanner.scan_cut hrun hdone hs with
        ⟨u, rfl, hscan⟩ | ⟨w, l₁, hnil, rfl, hscan, hdone₁, htaken, hrest⟩
      · have hstate : decide (l.state = .valid) = true := hdone
        obtain ⟨q₁, hparse, hrest⟩ :=
          hs'.parseHeaders_part hb' rfl (MessageHeaders.uncut_of_init hh u)
        refine ⟨q₁, ?_, hrest⟩
        simp only [hv, hscan, hstate, Bool.false_eq_true, if_false, Bool.not_true]
        exact hparse
      · have hstate : decide (l₁.state = .valid) = false := hdone₁
        have hp₁ : l₁.Pending := RequestLine.run_pending htaken hp
        have hsame : { l₁ with valid := false } = l₁ := by rw [← hp₁.1]
        refine ⟨{ q with line := l₁ }, ?_, .line hp₁ hrest hnil hl hh hs', rfl, hp₁.2⟩
        simp only [hv, hscan, hstate, hsame, Bool.false_eq_true, if_false, Bool.not_true,
          Bool.not_false, if_true]

/-! ### A head that is refused -/

/-- From `q` the last byte of the text is refused: in the request line at once, in a field where
the byte `d` follows. -/
inductive Refuses : RxRequest → List Char → Option Char → Prop
  | requestLine {q v} (hp : q.line.Pending) (hr : RequestLine.scanner.Refuses q.line v) :
      Refuses q v none
  | headers {q v d} (hv : q.line.valid) (hf : q.line.fail = false) (hi : q.headers.valid = false)
      (hr : q.headers.Refuses v d) : Refuses q v (some d)
  | line {q v l s d} (hp : q.line.Pending) (hrun : RequestLine.scanner.run q.line v = some l)
      (hne : v ≠ []) (hl : l.state = .valid) (hh : q.headers.field = .init)
      (hs : Refuses { q with line := { l with valid := true } } s d) : Refuses q (v ++ s) d

variable {d : Option Char}

/-- What `receive` asks of a head that does not parse. -/
def Bad (q : RxRequest) (b : List Char) : Prop := b ≠ [] ∨ q.line.fail = true

theorem Refuses.parseHeaders (hr : Refuses q s d) (hv : q.line.valid) (hu : Uncut q s)
    {t : List Char} (ht : d.toList <+: t) :
    ∃ q', q.parseHeaders (s ++ t) = (false, q', t) ∧ q'.Bad t := by
  cases hr with
  | requestLine hp => exact absurd hv (by simp [hp.1])
  | @headers _ _ d _ _ hi hr =>
    obtain ⟨u, rfl⟩ := ht
    obtain ⟨h', hparse⟩ := hr.parse hu u
    rw [Option.toList_some, List.singleton_append]
    exact ⟨{ q with headers := h' }, by simp [RxRequest.parseHeaders, hi, hparse],
      .inl (List.cons_ne_nil _ _)⟩
  | line hp => exact absurd hv (by simp [hp.1])

/-- **A buffer that begins with the text.** -/
theorem Refuses.parse (hr : Refuses q s d) (hu : Uncut q s) {t : List Char}
    (ht : d.toList <+: t) : ∃ q', q.parse (s ++ t) = (false, q', t) ∧ q'.Bad t := by
  by_cases hv : q.line.valid
  · unfold RxRequest.parse
    rw [if_pos hv]
    exact hr.parseHeaders hv hu ht
  · unfold RxRequest.parse RequestLine.parse
    cases hr with
    | requestLine _ hr =>
      obtain ⟨l, a, hscan, hrefused⟩ := hr.scan t
      refine ⟨{ q with line := (RequestLine.scanner.step l a).2 }, ?_, .inr ?_⟩
      · simp only [hv, hscan, Bool.false_eq_true, if_false, Bool.not_false, if_true]
      · have hrefused : (l.parseChar a).1 = false := hrefused
        simp [RequestLine.scanner, hrefused]
    | headers hv' => exact absurd hv' hv
    | @line _ v l s _ _ hrun _ hl hh hs =>
      have hscan : RequestLine.scanner.scan q.line (v ++ (s ++ t)) = (true, l, s ++ t) :=
        Scanner.scan_of_run hrun (by simpa [RequestLine.scanner] using hl) _
      have hstate : decide (l.state = .valid) = true := decide_eq_true hl
      rw [List.append_assoc]
      simp only [hv, hscan, hstate, Bool.false_eq_true, if_false, Bool.not_true]
      exact hs.parseHeaders rfl (MessageHeaders.uncut_of_init hh s) ht

theorem Refuses.parseHeaders_part {b b' : List Char} (hr : Refuses q (b ++ b') d) (hb' : b' ≠ [])
    (hv : q.line.valid) (hu : Uncut q b) :
    ∃ q₁, q.parseHeaders b = (false, q₁, []) ∧ Refuses q₁ b' d ∧ q₁.valid = q.valid ∧
      q₁.line.fail = false := by
  generalize hs : b ++ b' = s at hr
  cases hr with
  | requestLine hp => exact absurd hv (by simp [hp.1])
  | headers _ hf hi hr =>
    subst hs
    obtain ⟨h₁, hparse, hrest, hvalid⟩ := hr.parse_part hb' hu
    refine ⟨{ q with headers := h₁ }, ?_, .headers hv hf (hvalid.trans hi) hrest, rfl, hf⟩
    simp [RxRequest.parseHeaders, hi, hparse]
  | line hp => exact absurd hv (by simp [hp.1])

/-- **A buffer that ends within the text.** -/
theorem Refuses.parse_part {b b' : List Char} (hr : Refuses q (b ++ b') d) (hb' : b' ≠ [])
    (hu : Uncut q b) :
    ∃ q₁, q.parse b = (false, q₁, []) ∧ Refuses q₁ b' d ∧ q₁.valid = q.valid ∧
      q₁.line.fail = false := by
  by_cases hv : q.line.valid
  · unfold RxRequest.parse
    rw [if_pos hv]
    exact hr.parseHeaders_part hb' hv hu
  · unfold RxRequest.parse RequestLine.parse
    generalize hs : b ++ b' = s at hr
    cases hr with
    | requestLine hp hr =>
      subst hs
      obtain ⟨l₁, hscan, hdone, htaken, hrest⟩ := hr.scan_part hb'
      have hstate : decide (l₁.state = .valid) = false := hdone
      have hp₁ : l₁.Pending := RequestLine.run_pending htaken hp
      have hsame : { l₁ with valid := false } = l₁ := by rw [← hp₁.1]
      refine ⟨{ q with line := l₁ }, ?_, .requestLine hp₁ hrest, rfl, hp₁.2⟩
      simp only [hv, hscan, hstate, hsame, Bool.false_eq_true, if_false, Bool.not_true,
        Bool.not_false, if_true]
    | headers hv' => exact absurd hv' hv
    | @line _ v l s _ hp hrun _ hl hh hs' =>
      have hdone : RequestLine.scanner.done l := by simpa [RequestLine.scanner] using hl
      rcases Scanner.scan_cut hrun hdone hs with
        ⟨u, rfl, hscan⟩ | ⟨w, l₁, hnil, rfl, hscan, hdone₁, htaken, hrest⟩
      · have hstate : decide (l.state = .valid) = true := hdone
        obtain ⟨q₁, hparse, hrest⟩ :=
          hs'.parseHeaders_part hb' rfl (MessageHeaders.uncut_of_init hh u)
        refine ⟨q₁, ?_, hrest⟩
        simp only [hv, hscan, hstate, Bool.false_eq_true, if_false, Bool.not_true]
        exact hparse
      · have hstate : decide (l₁.state = .valid) = false := hdone₁
        have hp₁ : l₁.Pending := RequestLine.run_pending htaken hp
        have hsame : { l₁ with valid := false } = l₁ := by rw [← hp₁.1]
        refine ⟨{ q with line := l₁ }, ?_, .line hp₁ hrest hnil hl hh hs', rfl, hp₁.2⟩
        simp only [hv, hscan, hstate, hsame, Bool.false_eq_true, if_false, Bool.not_true,
          Bool.not_false, if_true]

end RxRequest

/-! ## What `receive` does with a request -/

namespace RxRequest

/-- A complete head that announces a body of `n` bytes. -/
structure Plain (q : RxRequest) (n : Nat) : Prop where
  valid : q.valid
  host : q.missingHostHeader = false
  notChunked : q.isChunked = false
  length : q.contentLength = n
  small : n ≤ maxBodySize
  trace : q.isTrace → n = 0

/-- A complete head that announces chunks. -/
structure Chunked (q : RxRequest) : Prop where
  valid : q.valid
  host : q.missingHostHeader = false
  chunked : q.isChunked
  length : q.contentLength = 0
  notTrace : q.isTrace = false

/-- A complete head that is refused for the length of its body, or for a body that TRACE may not
have. -/
structure Refused (q : RxRequest) : Prop where
  host : q.missingHostHeader = false
  notChunked : q.isChunked = false
  length : q.contentLength < 0 ∨ q.contentLength > maxBodySize ∨
    q.isTrace ∧ q.contentLength ≠ 0

end RxRequest

namespace Receiver

variable {x : Receiver} {q : RxRequest} {b b' s t : List Char}

theorem receive_of_valid (hv : x.request.valid) : x.receive b = x.receiveRest false b := by
  unfold receive
  rw [if_pos hv]

/-- **A buffer that begins with the rest of the head.** -/
theorem receive_head (hv : x.request.valid = false) (hw : x.request.Wants s q)
    (hu : x.request.Uncut s) :
    x.receive (s ++ t) = receiveRest { x with request := q } true t := by
  unfold receive
  simp only [hv, hw.parse hu t, Bool.false_eq_true, if_false, if_true]

/-- **A buffer that ends within the head.** -/
theorem receive_head_part (hv : x.request.valid = false) (hw : x.request.Wants (b ++ b') q)
    (hb' : b' ≠ []) (hu : x.request.Uncut b) :
    ∃ q₁, x.receive b = (.incomplete, { x with request := q₁ }, []) ∧ q₁.Wants b' q ∧
      q₁.valid = false := by
  obtain ⟨q₁, hparse, hwants, hvalid, hfail⟩ := hw.parse_part hb' hu
  refine ⟨q₁, ?_, hwants, hvalid.trans hv⟩
  unfold receive
  simp [hv, hparse, hfail]

theorem parseErrorCode_ge (s : RequestState) : 200 ≤ parseErrorCode s := by
  unfold parseErrorCode
  split <;> decide

/-- **A buffer that begins with a head that is refused.** -/
theorem receive_refused {d : Option Char} (hv : x.request.valid = false)
    (hr : x.request.Refuses s d) (hu : x.request.Uncut s) (ht : d.toList <+: t) :
    ∃ code, 200 ≤ code ∧ x.receive (s ++ t) = (.invalid, cleared code, t) := by
  obtain ⟨q', hparse, hbad⟩ := hr.parse hu ht
  refine ⟨parseErrorCode q'.line.state, parseErrorCode_ge _, ?_⟩
  have hbad : (decide (t ≠ []) || q'.line.fail) = true := by
    simpa [RxRequest.Bad, Bool.or_eq_true] using hbad
  unfold receive
  simp only [hv, hparse, Bool.false_eq_true, if_false, reject]
  rw [if_pos (by simpa using hbad)]

/-- **A buffer that ends within one.** -/
theorem receive_refused_part {d : Option Char} (hv : x.request.valid = false)
    (hr : x.request.Refuses (b ++ b') d) (hb' : b' ≠ []) (hu : x.request.Uncut b) :
    ∃ q₁, x.receive b = (.incomplete, { x with request := q₁ }, []) ∧ q₁.Refuses b' d ∧
      q₁.valid = false := by
  obtain ⟨q₁, hparse, hrest, hvalid, hfail⟩ := hr.parse_part hb' hu
  refine ⟨q₁, ?_, hrest, hvalid.trans hv⟩
  unfold receive
  simp [hv, hparse, hfail]

@[simp] theorem noteTrace_request (x : Receiver) : x.noteTrace.request = x.request := by
  unfold noteTrace
  split <;> rfl

@[simp] theorem noteTrace_body (x : Receiver) : x.noteTrace.body = x.body := by
  unfold noteTrace
  split <;> rfl

/-- None of the checks on the way to the body rejects the request. -/
theorem receiveRest_plain {n : Nat} (hq : x.request.Plain n) (hn : x.body.length + b.length ≤ n)
    (p : Bool) :
    x.receiveRest p b = completeBody { x.noteTrace with body := x.body ++ b } [] := by
  have htrace : ¬ (x.request.isTrace ∧ n ≠ 0) := fun h => h.2 (hq.trace h.1)
  have hneg : ¬ (n : Int) < 0 := by omega
  have hbig : ¬ (n : Int) > maxBodySize := by
    have := hq.small
    omega
  have hextra : ¬ (n = 0 ∧ b ≠ []) := by
    rintro ⟨rfl, hb⟩
    have := List.length_pos_of_ne_nil hb
    omega
  have hrequired : b.length ≤ (n : Int).toNat - x.body.length := by omega
  unfold receiveRest receiveBody
  simp only [hq.host, hq.notChunked, hq.length, Bool.false_eq_true, if_false, noteTrace_request,
    noteTrace_body, hneg, hbig, List.take_of_length_le hrequired, List.drop_of_length_le hrequired]
  rw [if_neg (by simpa using htrace), if_neg]
  simp only [Bool.and_eq_true, decide_eq_true_eq, not_and]
  intro h
  exact absurd (by simpa using h) hextra

/-- The receiver with the whole body of a request that is not chunked. -/
def withBody (x : Receiver) (w : List Char) : Receiver :=
  let x := { x.noteTrace with body := x.body ++ w, isHead := x.request.isHead }
  if x.isHead then { x with request.line.method := "GET".toList } else x

theorem withBody_keepAlive (x : Receiver) (w : List Char) :
    (x.withBody w).request.keepAlive = x.request.keepAlive := by
  unfold withBody
  dsimp only
  split <;> simp [RxRequest.keepAlive, RequestLine.isHttp10OrEarlier]

theorem withBody_trace {w : List Char} (ht : (x.withBody w).request.isTrace) :
    (x.withBody w).responseCode = 405 := by
  unfold withBody at ht ⊢
  dsimp only at ht ⊢
  split at ht
  · simp [RxRequest.isTrace] at ht
  · rw [if_neg ‹_›]
    rw [noteTrace_request] at ht
    unfold noteTrace
    rw [if_pos ht]

/-- **The last of the body.** -/
theorem receiveRest_body {n : Nat} (hq : x.request.Plain n) (hn : x.body.length + b.length = n)
    (p : Bool) : x.receiveRest p b = (.valid, x.withBody b, []) := by
  rw [receiveRest_plain hq hn.le]
  have hsize : ((x.body ++ b).length : Int) = x.noteTrace.request.contentLength := by
    rw [noteTrace_request, hq.length, List.length_append, hn]
  unfold completeBody withBody
  rw [if_pos hsize]
  simp only [noteTrace_request]
  split <;> rfl

/-- **A buffer that ends within the body.** -/
theorem receiveRest_body_part {n : Nat} (hq : x.request.Plain n)
    (hn : x.body.length + b.length < n) (p : Bool) :
    x.receiveRest p b = (.incomplete, { x with body := x.body ++ b }, []) := by
  rw [receiveRest_plain hq hn.le]
  have htrace : x.request.isTrace = false := by
    by_contra h
    have := hq.trace (by simpa using h)
    omega
  have hsize : ¬ ((x.body ++ b).length : Int) = x.noteTrace.request.contentLength := by
    rw [noteTrace_request, hq.length, List.length_append]
    omega
  unfold completeBody
  rw [if_neg hsize]
  unfold noteTrace
  simp only [htrace, Bool.false_eq_true, if_false]

/-- **A complete head that is refused**, whatever follows. -/
theorem receiveRest_refused (hq : x.request.Refused) (p : Bool) (b : List Char) :
    ∃ code, 200 ≤ code ∧ x.receiveRest p b = (.invalid, cleared code, b) := by
  unfold receiveRest receiveBody
  simp only [hq.host, hq.notChunked, Bool.false_eq_true, if_false, noteTrace_request]
  by_cases htrace : x.request.isTrace ∧ x.request.contentLength ≠ 0
  · exact ⟨400, by decide, by rw [if_pos (by simpa using htrace)]; rfl⟩
  · rw [if_neg (by simpa using htrace)]
    by_cases hneg : x.request.contentLength < 0
    · exact ⟨400, by decide, by rw [if_pos hneg]; rfl⟩
    · have hbig := (hq.length.resolve_left hneg).resolve_right htrace
      exact ⟨413, by decide, by rw [if_neg hneg, if_pos hbig]; rfl⟩

/-- **A complete head without a host**: the receiver keeps it. -/
theorem receiveRest_hostless (hq : x.request.missingHostHeader) (p : Bool) (b : List Char) :
    x.receiveRest p b = (.invalid, { x with responseCode := 400 }, b) := by
  unfold receiveRest
  rw [if_pos hq]

/-- The chunk that goes on in the next buffer. -/
def current (x : Receiver) : RxChunk := if x.chunk.valid then .init else x.chunk

/-- **The head of a chunked request is answered first**: with 100 where it expects that. -/
theorem receiveRest_chunked (hq : x.request.Chunked) (hc : x.chunk.valid = false)
    (hsent : x.continueSent = false) :
    x.receiveRest true b =
      if x.request.expectContinue then (.expectContinue, { x with responseCode := 100 }, b)
      else (.valid, x, b) := by
  unfold receiveRest receiveChunk
  simp [hq.host, hq.chunked, hc, hsent]

theorem current_valid (x : Receiver) : x.current.valid = false := by
  unfold current
  cases hv : x.chunk.valid
  · exact hv
  · rfl

theorem current_of_valid (hv : x.chunk.valid) : x.current = .init := by
  unfold current
  rw [if_pos hv]

/-- Once the head has been answered, the chunks are parsed. -/
theorem receiveRest_current (hq : x.request.Chunked) :
    x.receiveRest false b =
      let (ok, chunk, rest) := x.current.parse b
      let x := { x with chunk := chunk }
      if !ok && rest ≠ [] then reject 400 rest
      else if x.chunk.valid then (.chunk, x, rest)
      else (.incomplete, x, rest) := by
  unfold receiveRest receiveChunk current
  rw [if_neg (by simp [hq.host]), if_pos hq.chunked]
  split <;> rfl

/-- **A buffer that begins with the rest of a chunk.** -/
theorem receiveRest_chunk {c : RxChunk} (hq : x.request.Chunked) (hw : x.current.Wants s c)
    (hu : x.current.Uncut s) :
    x.receiveRest false (s ++ t) = (.chunk, { x with chunk := c }, t) := by
  rw [receiveRest_current hq, hw.parse hu t]
  simp [hw.valid]

/-- **A buffer that ends within a chunk.** -/
theorem receiveRest_chunk_part {c : RxChunk} (hq : x.request.Chunked)
    (hw : x.current.Wants (b ++ b') c) (hb' : b' ≠ []) (hu : x.current.Uncut b) :
    ∃ c₁, x.receiveRest false b = (.incomplete, { x with chunk := c₁ }, []) ∧
      RxChunk.Wants c₁ b' c ∧ c₁.valid = false := by
  obtain ⟨c₁, hparse, hwants, hvalid⟩ := hw.parse_part hb' hu
  rw [current_valid] at hvalid
  refine ⟨c₁, ?_, hwants, hvalid⟩
  rw [receiveRest_current hq, hparse]
  simp [hvalid]

/-- **A buffer that begins with a chunk that is refused, and goes on.** -/
theorem receiveRest_chunk_refused {d : Char} (hq : x.request.Chunked) (hr : x.current.Refuses s d)
    (hu : x.current.Uncut s) :
    x.receiveRest false (s ++ d :: t) = (.invalid, cleared 400, d :: t) := by
  obtain ⟨c', hparse⟩ := hr.parse hu t
  rw [receiveRest_current hq, hparse]
  simp [reject]

/-- **A buffer that ends within one.** -/
theorem receiveRest_chunk_refused_part {d : Char} (hq : x.request.Chunked)
    (hr : x.current.Refuses (b ++ b') d) (hb' : b' ≠ []) (hu : x.current.Uncut b) :
    ∃ c₁, x.receiveRest false b = (.incomplete, { x with chunk := c₁ }, []) ∧
      RxChunk.Refuses c₁ b' d ∧ c₁.valid = false := by
  obtain ⟨c₁, hparse, hrest, hvalid⟩ := hr.parse_part hb' hu
  rw [current_valid] at hvalid
  refine ⟨c₁, ?_, hrest, hvalid⟩
  rw [receiveRest_current hq, hparse]
  simp [hvalid]

end Receiver

end Camerasp.Http
