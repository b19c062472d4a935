import Camerasp.Http.Wire

/-!
# The answer to a request that is refused

When `request_receiver::receive` refuses a request it clears itself, and `send_response` then takes
the version of the response from the request line that has just been cleared: two NULs. Only a
request without a Host is refused otherwise.

Results:
* `round_refused`: what is sent for a request that is refused, with its version.
* `refused_unread`: **no client reads it**. However the answer to a request that the receiver
  cleared is cut into packets, the client is given no response, and at least one is invalid.
-/

namespace Camerasp.Http

open Camerasp.Lib (Scanner)

/-! ## The answer -/

/-- The codes of the requests that `receive` refuses. -/
def refusalCodes : List Nat := [400, 411, 413, 414, 501]

/-- How `receive` refuses: it clears itself, or it finds no Host in a request of HTTP/1.1. -/
inductive Refused : Receiver → Prop
  | cleared {code} (hcode : code ∈ refusalCodes) : Refused (.cleared code)
  | noHost {x : Receiver} (hcode : x.responseCode = 400) (hhost : x.request.missingHostHeader) :
      Refused x

variable {x : Receiver} {b : List Char}

theorem Refused.of_reject {code : Nat} {b : List Char} {x' : Receiver} {rest : List Char}
    (h : Receiver.reject code b = (.invalid, x', rest)) (hcode : code ∈ refusalCodes) :
    Refused x' := by
  cases h
  exact .cleared hcode

theorem refused_receiveBody {x' : Receiver} {rest : List Char}
    (h : x.receiveBody b = (.invalid, x', rest)) : Refused x' := by
  have hcomplete : ∀ (y : Receiver) (s : List Char), (y.completeBody s).1 ≠ .invalid := by
    intro y s
    unfold Receiver.completeBody
    split
    · dsimp only
      split <;> simp
    · simp
  unfold Receiver.receiveBody at h
  dsimp only at h
  split at h
  · exact .of_reject h (by decide)
  · split at h
    · exact .of_reject h (by decide)
    · split at h
      · exact .of_reject h (by decide)
      · split at h
        · exact .of_reject h (by decide)
        · exact absurd (congrArg Prod.fst h) (hcomplete _ _)

theorem refused_receiveChunk {p : Bool} {x' : Receiver} {rest : List Char}
    (h : x.receiveChunk p b = (.invalid, x', rest)) : Refused x' := by
  unfold Receiver.receiveChunk at h
  dsimp only at h
  generalize (if x.chunk.valid then { x with chunk := .init } else x) = y at h
  split at h
  · split at h
    · cases h
    · cases h
  · split at h
    · exact .of_reject h (by decide)
    · split at h
      · cases h
      · cases h

theorem refused_receiveRest {p : Bool} {x' : Receiver} {rest : List Char}
    (h : x.receiveRest p b = (.invalid, x', rest)) : Refused x' := by
  unfold Receiver.receiveRest at h
  split at h
  · rename_i hhost
    cases h
    exact .noHost rfl hhost
  · split at h
    · exact refused_receiveChunk h
    · exact refused_receiveBody h

/-- **Every request that `receive` refuses**, whatever the receiver's state. -/
theorem refused_receive {x' : Receiver} {rest : List Char}
    (h : x.receive b = (.invalid, x', rest)) : Refused x' := by
  unfold Receiver.receive at h
  split at h
  · exact refused_receiveRest h
  · dsimp only at h
    split at h
    · exact refused_receiveRest h
    · split at h
      · refine .of_reject h ?_
        unfold Receiver.parseErrorCode
        split <;> decide
      · cases h

/-- The answer, without the version. -/
def refusal (code : Nat) : TxResponse := .ofCode code

/-- **What is sent for a request that is refused**, where no write is in progress. -/
theorem round_refused {env : Env} {w : Wire} (hidle : w.conn.transmitting = false)
    (h : (Wire.round env w b).1 = .invalid) :
    (∃ code ∈ refusalCodes, (Wire.round env w b).2.1.out =
      w.out ++ ((refusal code).setVersion '\x00' '\x00').message 0) ∨
    (w.conn.rx.receive b).2.1.request.missingHostHeader ∧
      (Wire.round env w b).2.1.out = w.out ++ (refusal 400).message 0 := by
  obtain ⟨state, x', rest, hreceive⟩ : ∃ state x' rest,
      (Server.note w.conn).rx.receive b = (state, x', rest) := ⟨_, _, _, rfl⟩
  simp only [Wire.round, Wire.map, hreceive] at h ⊢
  rw [Server.note_rx] at hreceive
  rw [hreceive]
  subst h
  have hfree : (Server.note w.conn).transmitting = false := by rw [Server.note_transmitting, hidle]
  simp only [Wire.handle, Wire.invalidRequest, Wire.sendResponse, Wire.map, Wire.send,
    TxResponse.isValid_ofCode, if_true, hfree, Bool.false_eq_true, if_false, Wire.text,
    Wire.versioned, ite_self, List.append_nil, List.length_nil]
  cases refused_receive hreceive with
  | cleared hcode => exact .inl ⟨_, hcode, rfl⟩
  | noHost hcode hhost =>
    refine .inr ⟨hhost, ?_⟩
    simp only [RxRequest.missingHostHeader, Bool.and_eq_true, decide_eq_true_eq] at hhost
    rw [hcode, hhost.1.1, hhost.1.2]
    rfl

/-! ## The client -/

namespace Client

/-- A client that has been given nothing but invalid responses, and waits for an `H`. -/
structure Waiting (c : Client) : Prop where
  line : c.rx.response.line.state = .httpH
  lineValid : c.rx.response.line.valid = false
  lineFail : c.rx.response.line.fail = false
  valid : c.rx.response.valid = false
  invalid : ∀ d ∈ c.delivered, d = .invalid

/-- The start of a status line, up to the version. -/
inductive InPrefix : Client → List Char → Prop
  | intro {l : ResponseLine} (v s : List Char) (hv : v ++ s = "HTTP/".toList)
      (hrun : ResponseLine.scanner.run .init v = some l) :
      InPrefix ⟨⟨⟨l, .init, false⟩, .init, []⟩, []⟩ s

variable {c c' : Client} {s t : List Char} {packets : List (List Char)} {l : ResponseLine}

/-- Text without an `H`: blanks are ignored, and anything else is refused. -/
theorem scan_noH (hs : 'H' ∉ s) (hl : l.state = .httpH) (hf : l.fail = false) :
    (∃ l', ResponseLine.scanner.scan l s = (true, l', []) ∧ l'.state = .httpH ∧
      l'.fail = false) ∨
    ∃ l' rest, ResponseLine.scanner.scan l s = (false, l', rest) ∧ l'.fail = true := by
  induction s generalizing l with
  | nil => exact .inl ⟨l, rfl, hl, hf⟩
  | cons a s ih =>
    simp only [List.mem_cons, not_or] at hs
    have hopen : ResponseLine.scanner.done l = false := by simp [ResponseLine.scanner, hl]
    cases hstep : (l.parseChar a).1 with
    | false =>
      refine .inr ⟨{ (l.parseChar a).2 with fail := true }, s, ?_, rfl⟩
      simp only [Scanner.scan, hopen, Bool.false_eq_true, if_false]
      simp [ResponseLine.scanner, hstep]
    | true =>
      have hstate : (l.parseChar a).2.state = .httpH := by
        unfold ResponseLine.parseChar at hstep ⊢
        simp only [hl] at hstep ⊢
        split
        · rename_i hblank
          unfold ResponseLine.ignoreBlank at hstep ⊢
          rw [if_pos hblank] at hstep
          dsimp only at hstep ⊢
          split
          · rename_i hmany
            rw [if_pos hmany] at hstep
            cases hstep
          · exact hl
        · rename_i hblank
          rw [if_neg hblank, ResponseLine.expectChar, if_neg (Ne.symm hs.1)] at hstep
          cases hstep
      have hscan : ResponseLine.scanner.scan l (a :: s) =
          ResponseLine.scanner.scan { (l.parseChar a).2 with fail := false } s := by
        simp only [Scanner.scan, hopen, Bool.false_eq_true, if_false]
        simp [ResponseLine.scanner, hstep]
      rw [hscan]
      exact ih hs.2 hstate rfl

/-- What `parse` does with a line that is refused. -/
theorem receive_refused {x : ResponseReceiver} {rest : List Char} {l' : ResponseLine}
    (hv : x.response.valid = false) (hl : x.response.line.valid = false)
    (hscan : ResponseLine.scanner.scan x.response.line s = (false, l', rest))
    (hfail : l'.fail = true) : x.receive s = (.invalid, .init, rest) := by
  unfold ResponseReceiver.receive RxResponse.parse ResponseLine.parse
  simp [hv, hl, hscan, hfail]

/-- What `parse` does with the first part of a line. -/
theorem receive_incomplete {x : ResponseReceiver} {l' : ResponseLine}
    (hv : x.response.valid = false) (hl : x.response.line.valid = false)
    (hscan : ResponseLine.scanner.scan x.response.line s = (true, l', []))
    (hstate : l'.state ≠ .valid) (hfail : l'.fail = false) : x.receive s = (.incomplete,
      { x with response := { x.response with line := { l' with valid := false } } }, []) := by
  unfold ResponseReceiver.receive RxResponse.parse ResponseLine.parse
  simp [hv, hl, hscan, hstate, hfail]

/-- A packet of which nothing is left. -/
theorem receiveHandler_incomplete {x : ResponseReceiver} (hs : s ≠ [])
    (hreceive : c.rx.receive s = (.incomplete, x, [])) :
    c.receiveHandler s = some ⟨x, c.delivered⟩ := by
  cases s with
  | nil => exact absurd rfl hs
  | cons a s => simp [receiveHandler, receiveLoop, hreceive, handle]

/-- A packet that is refused at once. -/
theorem receiveHandler_refused {rest : List Char} (hs : s ≠ [])
    (hreceive : c.rx.receive s = (.invalid, .init, rest)) :
    c.receiveHandler s = some ⟨.init, c.delivered ++ [.invalid]⟩ := by
  cases s with
  | nil => exact absurd rfl hs
  | cons a s => simp [receiveHandler, receiveLoop, hreceive, handle, deliver, clear]

theorem Waiting.receiveHandler (hc : Waiting c) (hs : 'H' ∉ s) :
    ∃ c', c.receiveHandler s = some c' ∧ Waiting c' ∧ (c.delivered ≠ [] → c'.delivered ≠ []) := by
  by_cases hne : s = []
  · subst hne
    exact ⟨c, rfl, hc, id⟩
  · rcases scan_noH hs hc.line hc.lineFail with
      ⟨l', hscan, hstate, hfail⟩ | ⟨l', rest, hscan, hfail⟩
    · exact ⟨_, receiveHandler_incomplete hne (receive_incomplete hc.valid hc.lineValid hscan
        (by simp [hstate]) hfail), ⟨hstate, rfl, hfail, hc.valid, hc.invalid⟩, id⟩
    · refine ⟨_, receiveHandler_refused hne
        (receive_refused hc.valid hc.lineValid hscan hfail), ⟨rfl, rfl, rfl, rfl, ?_⟩, by simp⟩
      intro d hd
      rcases List.mem_append.mp hd with hd | hd
      · exact hc.invalid d hd
      · exact List.mem_singleton.mp hd

theorem Waiting.run (hc : Waiting c) (hne : c.delivered ≠ []) (hs : 'H' ∉ packets.flatten) :
    ∃ c', c.run packets = some c' ∧ Waiting c' ∧ c'.delivered ≠ [] := by
  induction packets generalizing c with
  | nil => exact ⟨c, rfl, hc, hne⟩
  | cons b packets ih =>
    rw [List.flatten_cons, List.mem_append, not_or] at hs
    obtain ⟨c₁, hb, hc₁, hne₁⟩ := hc.receiveHandler hs.1
    obtain ⟨c', hrun, hc'⟩ := ih hc₁ (hne₁ hne) hs.2
    exact ⟨c', by rw [run_cons, hb]; exact hrun, hc'⟩

/-- In the start of a status line the line is not complete. -/
theorem InPrefix.pending {v : List Char} (hrun : ResponseLine.scanner.run .init v = some l) :
    l.valid = false ∧ l.fail = false :=
  ResponseLine.run_pending hrun ⟨rfl, rfl⟩

/-- A packet that ends before the version. -/
theorem InPrefix.part {b : List Char} (hc : InPrefix c (b ++ s)) :
    ∃ c', c.receiveHandler b = some c' ∧ InPrefix c' s := by
  generalize htext : b ++ s = text at hc
  obtain ⟨v, _, hv, hrun⟩ := hc
  subst htext
  rename_i l
  obtain ⟨hvalid, hfail⟩ := InPrefix.pending hrun
  have hprefix : ResponseLine.scanner.run .init "HTTP/".toList =
      some { ResponseLine.init with state := .httpMajor } := by decide
  rw [← hv, ← List.append_assoc] at hprefix
  obtain ⟨l', hl', hrest⟩ := Scanner.exists_of_run_append hprefix
  rw [Scanner.run_append, hrun, Option.bind_some] at hl'
  have hopen : ResponseLine.scanner.done l' = false := by
    cases s with
    | nil =>
      cases hrest
      rfl
    | cons a s => exact Scanner.not_done_of_run hrest (List.cons_ne_nil a s)
  obtain ⟨hvalid', hfail'⟩ := ResponseLine.run_pending hl' ⟨hvalid, hfail⟩
  refine ⟨⟨⟨⟨l', .init, false⟩, .init, []⟩, []⟩, ?_, .intro (v ++ b) s (by simpa using hv) ?_⟩
  · cases b with
    | nil =>
      cases hl'
      rfl
    | cons a b =>
      have hscan : ResponseLine.scanner.scan l (a :: b) = (true, l', []) := by
        have h := Scanner.scan_append hl' []
        rw [List.append_nil] at h
        exact h
      have hstate : l'.state ≠ .valid := of_decide_eq_false hopen
      have hsame : { l' with valid := false } = l' := by rw [← hvalid']
      have hreceive := receive_incomplete (x := ⟨⟨l, .init, false⟩, .init, []⟩) rfl hvalid hscan
        hstate hfail'
      rw [hsame] at hreceive
      exact receiveHandler_incomplete (List.cons_ne_nil a b) hreceive
  · rw [Scanner.run_append, hrun]
    exact hl'

/-- A packet with the version, which is not a digit. -/
theorem InPrefix.refused {major : Char} {u : List Char} (hc : InPrefix c s)
    (hmajor : major.isDigit = false) :
    c.receiveHandler (s ++ major :: u) = some ⟨.init, [.invalid]⟩ := by
  obtain ⟨v, _, hv, hrun⟩ := hc
  rename_i l
  obtain ⟨hvalid, -⟩ := InPrefix.pending hrun
  have hprefix : ResponseLine.scanner.run .init "HTTP/".toList =
      some { ResponseLine.init with state := .httpMajor } := by decide
  rw [← hv, Scanner.run_append, hrun, Option.bind_some] at hprefix
  have hscan := Scanner.scan_append hprefix (major :: u)
  have hrefused : ResponseLine.scanner.scan { ResponseLine.init with state := .httpMajor }
      (major :: u) = (false, { ResponseLine.init with state := .httpMajor, fail := true }, u) := by
    simp [Scanner.scan, ResponseLine.scanner, ResponseLine.parseChar, hmajor]
  exact receiveHandler_refused (by simp) (receive_refused (x := ⟨⟨l, .init, false⟩, .init, []⟩)
    rfl hvalid (hscan.trans hrefused) rfl)

/-- **A status line whose version is not a digit** gives the client nothing but invalid
responses. -/
theorem run_noVersion {major : Char} (hmajor : major.isDigit = false) (ht : 'H' ∉ t)
    (hc : InPrefix c s) (htext : packets.flatten = s ++ major :: t) :
    ∃ c', c.run packets = some c' ∧ Waiting c' ∧ c'.delivered ≠ [] := by
  induction packets generalizing c s with
  | nil => exact absurd htext (by simp)
  | cons b packets ih =>
    rw [List.flatten_cons] at htext
    rcases Lib.cut_cases htext with ⟨u, rfl, hu⟩ | ⟨w, -, rfl, hrest⟩
    · cases u with
      | nil =>
        rw [← List.append_nil s] at hc
        obtain ⟨c₁, hb, hc₁⟩ := hc.part
        obtain ⟨c', hrun, hc'⟩ := ih hc₁ hu.symm
        exact ⟨c', by rw [run_cons, List.append_nil, hb]; exact hrun, hc'⟩
      | cons d u =>
        obtain ⟨rfl, rfl⟩ := List.cons.inj hu
        obtain ⟨c', hrun, hc'⟩ := Waiting.run (c := ⟨.init, [.invalid]⟩)
          ⟨rfl, rfl, rfl, rfl, by simp⟩ (by simp) fun h => ht (List.mem_append_right u h)
        exact ⟨c', by rw [run_cons, hc.refused hmajor]; exact hrun, hc'⟩
    · obtain ⟨c₁, hb, hc₁⟩ := hc.part
      obtain ⟨c', hrun, hc'⟩ := ih hc₁ hrest
      exact ⟨c', by rw [run_cons, hb]; exact hrun, hc'⟩

end Client

/-- The text of an answer without a version. -/
theorem noVersion_text {code : Nat} (hcode : code ∈ refusalCodes) :
    ∃ t, ((refusal code).setVersion '\x00' '\x00').message 0 = "HTTP/".toList ++ '\x00' :: t ∧
      'H' ∉ t := by
  have hall : ∀ code ∈ refusalCodes,
      ((refusal code).setVersion '\x00' '\x00').message 0 = "HTTP/".toList ++ '\x00' ::
        (((refusal code).setVersion '\x00' '\x00').message 0).drop 6 ∧
      'H' ∉ (((refusal code).setVersion '\x00' '\x00').message 0).drop 6 := by decide
  exact ⟨_, hall code hcode⟩

/-- **A request that is refused is answered so that no client can read it**, but for the one
without a Host. -/
theorem refused_unread {env : Env} {w : Wire} (hidle : w.conn.transmitting = false)
    (h : (Wire.round env w b).1 = .invalid) :
    ∃ text, (Wire.round env w b).2.1.out = w.out ++ text ∧
      ((w.conn.rx.receive b).2.1.request.missingHostHeader ∧ text = (refusal 400).message 0 ∨
        ∀ packets, packets.flatten = text →
          ∃ c, Client.init.run packets = some c ∧ (∀ d ∈ c.delivered, d = .invalid) ∧
            c.delivered ≠ []) := by
  rcases round_refused hidle h with ⟨code, hcode, hout⟩ | ⟨hhost, hout⟩
  · obtain ⟨t, htext, ht⟩ := noVersion_text hcode
    refine ⟨_, hout, .inr fun packets hpackets => ?_⟩
    obtain ⟨c, hrun, hc, hne⟩ := Client.run_noVersion (by decide : '\x00'.isDigit = false) ht
      (.intro [] "HTTP/".toList rfl rfl) (hpackets.trans htext)
    exact ⟨c, hrun, hc.invalid, hne⟩
  · exact ⟨_, hout, .inl ⟨hhost, rfl⟩⟩

/-- A method in lower case. -/
theorem refused_unread_lower :
    ∃ text, (Wire.round ⟨⟨none, fun _ => []⟩, fun _ => ⟨0, 1, 0, 2024, 0, 0, 0⟩⟩ (.ready 204 false)
        "get / HTTP/1.1\r\n\r\n".toList).2.1.out = text ∧
      ∀ packets, packets.flatten = text →
        ∃ c, Client.init.run packets = some c ∧ (∀ d ∈ c.delivered, d = .invalid) ∧
          c.delivered ≠ [] := by
  obtain ⟨text, hout, ⟨hhost, -⟩ | hread⟩ := @refused_unread "get / HTTP/1.1\r\n\r\n".toList
    ⟨⟨none, fun _ => []⟩, fun _ => ⟨0, 1, 0, 2024, 0, 0, 0⟩⟩ (.ready 204 false) rfl rfl
  · exact absurd hhost (by decide)
  · exact ⟨text, hout, hread⟩

end Camerasp.Http
