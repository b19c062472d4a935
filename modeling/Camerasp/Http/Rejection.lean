import Camerasp.Http.Exchange

/-!
# Requests that the receiver refuses

A refused request is answered once with the code of the receiver and its connection closed,
whether a byte of the head is refused (`servedOnce_refused`), the complete head
(`servedOnce_head_refused`), or a byte of a chunk after the head has been answered with 100
(`servedOnce_chunk_refused`). What follows is not read.

A head without a host is answered as well, but its connection is closed only when that response has
been written. A byte that comes before is taken for the start of a request
(`servedOnce_hostless`).
-/

namespace Camerasp.Http

open Server

variable (site : Site) {c : Connection} {q : RxRequest} {head n : Nat} {t s b b' : List Char}
  {o : Option Char}

/-! ## The answer -/

/-- The answer to what the receiver refuses: the connection is not kept. -/
theorem handle_invalid {code : Nat} (hrx : c.rx = .cleared code) :
    (handle site c .invalid).connected = false ∧
      (handle site c .invalid).log = c.log ++ [.response ⟨code, []⟩ !c.transmitting] := by
  have hkeep : c.rx.request.keepAlive = false := by rw [hrx]; rfl
  have hhead : c.rx.isHead = false := by rw [hrx]; rfl
  have hcode : c.rx.responseCode = code := by rw [hrx]; rfl
  simp [handle, Handlers.invalidRequest, Connection.sendResponse, Connection.send, hkeep, hhead,
    hcode, Connection.sendData, Connection.shutdown, Connection.disconnect, Connection.clear]

/-- A packet that the receiver refuses. -/
theorem receiveLoop_invalid {x : Receiver} {rest : List Char} (hb : b ≠ []) (hn : b.length ≤ n)
    (hreceive : c.rx.receive b = (.invalid, x, rest)) :
    receiveLoop site n c b = handle site { note c with
      rx := x, received := (note c).received + (b.length - rest.length) } .invalid := by
  obtain ⟨a, b, rfl⟩ := List.exists_cons_of_ne_nil hb
  obtain ⟨m, rfl⟩ : ∃ m, n = m + 1 := ⟨n - 1, by simp at hn; omega⟩
  simp only [receiveLoop, Server.round, note_rx, hreceive, if_true]

/-- Nothing happens on a closed connection. -/
theorem log_run_closed (hc : c.connected = false) (inputs : List Input) :
    (run site c inputs).log = c.log := by
  induction inputs generalizing c with
  | nil => rfl
  | cons i inputs ih =>
    rw [run_cons]
    cases i with
    | read b =>
      have hskip : step site c (.read b) = c := by simp [step, hc]
      rw [hskip]
      exact ih hc
    | written =>
      unfold step Connection.shutdown
      dsimp only
      split
      · exact ih rfl
      · exact ih hc

/-- **Bytes that the receiver refuses are answered once**, unless a write is in progress, and
nothing after them is parsed. -/
theorem servedOnce_invalid {code : Nat} {rest : List Char} (hk : Kept head c)
    (hpos : c.received < head) (hb : b ≠ []) (hcode : 200 ≤ code)
    (hreceive : c.rx.receive b = (.invalid, .cleared code, rest)) (post : List Input) :
    ServedOnce head (run site c (.read b :: post)).log ↔ c.transmitting = false := by
  obtain ⟨hclosed, hlog⟩ := handle_invalid site (c := { note c with
    rx := .cleared code, received := (note c).received + (b.length - rest.length) }) rfl
  rw [run_cons, step_read site hk.connected, receiveLoop_invalid site hb le_rfl hreceive,
    log_run_closed site hclosed, hlog, (hk.note hpos).quiet.servedOnce_iff hcode]
  simp

/-! ## A byte of the head -/

/-- `s` is still to come of a head of which the last byte is refused. -/
inductive InRefused (o : Option Char) (head : Nat) : Connection → List Char → Prop
  | intro {c code q₀ s} (hk : Kept head c)
      (hrx : c.rx = { Receiver.cleared code with request := q₀ }) (hv : q₀.valid = false)
      (hr : q₀.Refuses s o) (hpos : c.received + s.length ≤ head) : InRefused o head c s

theorem InRefused.kept (hin : InRefused o head c s) : Kept head c := by
  cases hin with
  | intro hk => exact hk

/-- **A packet that ends before the byte.** -/
theorem InRefused.part (hin : InRefused o head c (b ++ b')) (hb' : b' ≠ []) (hu : c.Uncut b)
    (hn : b.length ≤ n) : InRefused o head (receiveLoop site n c b) b' := by
  generalize hs : b ++ b' = s at hin
  cases hin with
  | @intro code q₀ _ hk hrx hv hr hpos =>
    subst hs
    rw [List.length_append] at hpos
    have hlen := List.length_pos_of_ne_nil hb'
    by_cases hb : b = []
    · subst hb
      rw [receiveLoop_nil]
      exact .intro hk hrx hv hr (by simpa using hpos)
    · obtain ⟨q₁, hreceive, hrest, hv₁⟩ :=
        Receiver.receive_refused_part (x := c.rx) (by rw [hrx]; exact hv) (by rw [hrx]; exact hr)
          hb' (by simpa [hrx] using hu.1)
      have hkept := hk.note (c := c) (by omega)
      rw [receiveLoop_incomplete site hb hn hreceive]
      refine .intro ⟨hkept.connected, hkept.notPending, hkept.quiet⟩
        (show _ = { Receiver.cleared code with request := q₁ } by simp [hrx]) hv₁ hrest ?_
      simp only [note_received]
      omega

theorem InRefused.written (hin : InRefused o head c s) :
    InRefused o head (step site c .written) s := by
  cases hin with
  | intro hk hrx hv hr hpos =>
    have hkept := hk.written site
    unfold step at hkept ⊢
    rw [if_neg (by simp [hk.notPending])] at hkept ⊢
    exact .intro hkept hrx hv hr hpos

variable {v h : List Char} {code : Nat} {transmitting : Bool} {inputs : List Input}

/-- **A head of which a byte is refused**: the last of `v`, noticed with `o`. -/
theorem servedOnce_refused (hr : RxRequest.init.Refuses v o) (hhead : v.length ≤ head)
    (hs : s ≠ []) (hbytes : bytes inputs ++ s = v) (ht : o.toList <+: t)
    (hu : Undivided site (.ready code transmitting) (inputs ++ [.read (s ++ t)]))
    (post : List Input) :
    ServedOnce head
        (run site (.ready code transmitting) (inputs ++ .read (s ++ t) :: post)).log ↔
      (run site (.ready code transmitting) inputs).transmitting = false := by
  have hin : InRefused o head (run site (.ready code transmitting) inputs) s := by
    refine run_part site (fun c b s hs hu hin => ?_) (fun c s hin => hin.written site) hu.left hs ?_
    · rw [step_read site hin.kept.connected]
      exact hin.part site hs hu le_rfl
    · rw [hbytes]
      exact .intro ⟨rfl, rfl, .nil⟩ rfl rfl hr (by simpa [Connection.ready] using hhead)
  have hcut := hu inputs (s ++ t) [] rfl
  rw [run_append]
  generalize run site (.ready code transmitting) inputs = c at hin hcut ⊢
  cases hin with
  | @intro _ q₀ _ hk hrx hv hr hpos =>
    have hlen := List.length_pos_of_ne_nil hs
    obtain ⟨refused, hge, hreceive⟩ :=
      Receiver.receive_refused (x := c.rx) (by rw [hrx]; exact hv) (by rw [hrx]; exact hr)
        (MessageHeaders.Uncut.left hcut.1 hs) ht
    exact servedOnce_invalid site hk (by omega) (by simp [hs]) hge hreceive post

/-! ## A complete head -/

/-- Within the head. -/
theorem run_inHead (hw : RxRequest.init.Wants h q) (hs : s ≠ []) (hbytes : bytes inputs ++ s = h)
    (hu : Undivided site (.ready code transmitting) inputs) :
    Kept h.length (run site (.ready code transmitting) inputs) ∧
      InHead q h.length [] (run site (.ready code transmitting) inputs) s := by
  refine run_part site (P := fun c s => Kept h.length c ∧ InHead q h.length [] c s)
    (fun c b s hs hu hin => ?_)
    (fun c s hin => ⟨hin.1.written site, hin.2.written site hin.1⟩) hu hs ?_
  · rw [step_read site hin.1.connected]
    rcases hin.2.packet site hin.1 hu le_rfl with hpart | ⟨_, u, -, hnil, -⟩
    · exact hpart
    · exact absurd (List.append_eq_nil_iff.mp hnil.symm).2 hs
  · rw [hbytes]
    have hready := @inHead_ready q [] h code transmitting hw
    rwa [List.append_nil] at hready

/-- The packet with which the head is complete. -/
theorem run_completes (hw : RxRequest.init.Wants h q) (hs : s ≠ [])
    (hbytes : bytes inputs ++ s = h)
    (hu : Undivided site (.ready code transmitting) (inputs ++ [.read (s ++ t)])) :
    Kept h.length (run site (.ready code transmitting) inputs) ∧
      Completes q h.length (run site (.ready code transmitting) inputs) s t := by
  obtain ⟨hk, hin⟩ := run_inHead site hw hs hbytes hu.left
  have hcut := hu inputs (s ++ t) [] rfl
  generalize run site (.ready code transmitting) inputs = c at hk hin hcut ⊢
  generalize hempty : ([] : List Char) = u at hin
  cases hin with
  | intro hrx hv hw hpos =>
    subst hempty
    rw [List.append_nil] at hcut
    rw [List.append_nil]
    exact ⟨hk, completes hrx hv hw hpos hcut⟩

/-- **A complete head that is refused.** -/
theorem servedOnce_head_refused (hw : RxRequest.init.Wants h q) (hq : q.Refused) (hs : s ≠ [])
    (hbytes : bytes inputs ++ s = h)
    (hu : Undivided site (.ready code transmitting) (inputs ++ [.read (s ++ t)]))
    (post : List Input) :
    ServedOnce h.length
        (run site (.ready code transmitting) (inputs ++ .read (s ++ t) :: post)).log ↔
      (run site (.ready code transmitting) inputs).transmitting = false := by
  obtain ⟨hk, hc⟩ := run_completes site hw hs hbytes hu
  obtain ⟨code', hreceive⟩ := hc.receive
  obtain ⟨refused, hge, hrest⟩ := Receiver.receiveRest_refused
    (x := { Receiver.cleared code' with request := q }) hq true t
  have hlen := List.length_pos_of_ne_nil hs
  have hpos := hc.pos
  rw [run_append]
  exact servedOnce_invalid site hk (by omega) (by simp [hs]) hge (hreceive.trans hrest) post

/-- The bytes that are read before a write completes. -/
def bytesUntilWritten : List Input → List Char
  | [] => []
  | .read b :: inputs => b ++ bytesUntilWritten inputs
  | .written :: _ => []

/-- A connection that is to be closed with the end of the write: the next byte, if it comes before,
is taken for the start of a request. -/
theorem run_pending (hc : c.connected) (hpending : c.disconnectPending) (hrx : c.rx = .cleared code)
    (post : List Input) :
    bytesUntilWritten post = [] ∧ (run site c post).log = c.log ∨
      bytesUntilWritten post ≠ [] ∧ .start c.received ∈ (run site c post).log := by
  induction post with
  | nil => exact .inl ⟨rfl, rfl⟩
  | cons i post ih =>
    rw [run_cons]
    cases i with
    | read b =>
      rw [step_read site hc]
      by_cases hb : b = []
      · subst hb
        rw [receiveLoop_nil]
        exact ih
      · exact .inr ⟨by simp [bytesUntilWritten, hb],
          (log_run site _ post).subset (start_of_cleared site hrx hb le_rfl)⟩
    | written =>
      have hclosed : step site c .written = c.shutdown := by simp [step, hpending]
      rw [hclosed]
      exact .inl ⟨rfl, log_run_closed site rfl post⟩

/-- **A complete head without a host.** -/
theorem servedOnce_hostless (hw : RxRequest.init.Wants h q) (hq : q.missingHostHeader)
    (hkeep : q.keepAlive) (hs : s ≠ []) (hbytes : bytes inputs ++ s = h)
    (hu : Undivided site (.ready code transmitting) (inputs ++ [.read (s ++ t)]))
    (post : List Input) :
    ServedOnce h.length
        (run site (.ready code transmitting) (inputs ++ .read (s ++ t) :: post)).log ↔
      bytesUntilWritten post = [] ∧
        (run site (.ready code transmitting) inputs).transmitting = false := by
  obtain ⟨hk, hc⟩ := run_completes site hw hs hbytes hu
  obtain ⟨code', hreceive⟩ := hc.receive
  rw [Receiver.receiveRest_hostless (x := { Receiver.cleared code' with request := q }) hq]
    at hreceive
  have hkept := hc.note hk
  have hpos : (note (run site (.ready code transmitting) inputs)).received +
      ((s ++ t).length - t.length) = h.length := by
    rw [note_received, List.length_append, Nat.add_sub_cancel]
    exact hc.pos
  rw [run_append, run_cons, step_read site hk.connected,
    receiveLoop_invalid site (by simp [hs]) le_rfl hreceive, hpos]
  generalize run site (.ready code transmitting) inputs = c at hkept ⊢
  -- answered with 400, and to be disconnected when that has been written
  have hanswered : handle site { note c with
      rx := { Receiver.cleared code' with request := q, responseCode := 400 }
      received := h.length } .invalid =
      { (note c).answered ⟨400, []⟩ 400 true with received := h.length } := by
    simp [handle, Handlers.invalidRequest, Connection.sendResponse, Connection.send, hkeep,
      Connection.sendData, Connection.disconnect, Connection.clear, Connection.answered,
      Receiver.clear, Receiver.cleared]
  rw [hanswered]
  rcases run_pending site
    (c := { (note c).answered ⟨400, []⟩ 400 true with received := h.length })
    hkept.connected rfl rfl post with ⟨hnone, hlog⟩ | ⟨hsome, hp⟩
  · rw [hlog]
    refine (hkept.quiet.servedOnce_iff (by decide)).trans ?_
    simp [hnone]
  · simp only [hsome, false_and, iff_false]
    exact not_servedOnce hp le_rfl

/-! ## A byte of a chunk -/

/-- **The packet with the byte that is refused, and with the one behind it.** -/
theorem Awaits.refused_all {k : RxChunk} {d : Char} (ha : Awaits (some d) k s)
    (hq : c.rx.request.Chunked) (hk : c.rx.current = k) (hu : k.Uncut s)
    (hn : (s ++ d :: t).length ≤ n) :
    (receiveLoop site n c (s ++ d :: t)).connected = false ∧
      (receiveLoop site n c (s ++ d :: t)).log =
        c.log ++ [.response ⟨400, []⟩ !c.transmitting] := by
  generalize ho : some d = o at ha
  induction ha generalizing c n with
  | last => cases ho
  | @refused k s d' hr =>
    cases ho
    subst hk
    have hreceive := Receiver.receive_of_valid (b := s ++ d :: t) hq.valid
    rw [Receiver.receiveRest_chunk_refused hq hr hu] at hreceive
    rw [receiveLoop_invalid site (by simp) hn hreceive, note_of_valid hq.valid]
    exact handle_invalid site rfl
  | @more o k s k' v hw hl ht ih =>
    rw [List.append_assoc] at hn ⊢
    obtain ⟨m, hm, hloop⟩ := receiveLoop_chunk site hq hk hw (hu.left hw.ne_nil) hn
    rw [Connection.handle_chunk site hl] at hloop
    rw [hloop]
    exact ih (c := { c with rx := { c.rx with chunk := k' }, received := c.received + s.length })
      hq (Receiver.current_of_valid hw.valid) (MessageHeaders.uncut_of_init rfl v) hm ho

/-- **The answer to a chunk that is refused is dropped where 100 is still being written**: always,
where the head was not complete before. -/
theorem InExpected.refused {d : Char} {u : List Char} (hin : InExpected q head (some d) t c s)
    (hq : q.Chunked) (hexpect : q.expectContinue) (hkeep : q.keepAlive)
    (ht : Awaits (some d) .init t) (hs : s ≠ []) (hu : c.Uncut (s ++ d :: u))
    (hn : (s ++ d :: u).length ≤ n) :
    ∃ log, Quiet head log ∧ (receiveLoop site n c (s ++ d :: u)).connected = false ∧
      (receiveLoop site n c (s ++ d :: u)).log =
        log ++ [.response ⟨400, []⟩ (decide (s.length ≤ t.length) && !c.transmitting)] := by
  have hu' : c.Uncut s := ⟨hu.1.left hs, hu.2.left hs⟩
  obtain ⟨hk, hin | ⟨hin, hle⟩⟩ := hin
  · obtain ⟨h, rfl, -⟩ := hin.completes hu'
    generalize hv : h ++ t = v at hin
    cases hin with
    | @intro code q₀ h' hrx hv' hw hpos =>
      obtain rfl : h = h' := List.append_cancel_right hv
      rw [List.append_assoc] at hu hn ⊢
      have hc := completes hrx hv' hw hpos hu
      have hlen := List.length_pos_of_ne_nil hc.ne_nil
      obtain ⟨m, c₁, hm, hloop, hkept, hreq, hcur, hbusy⟩ :=
        receiveLoop_expected site hc hk hq hexpect hkeep hn
      obtain ⟨hclosed, hlog⟩ := ht.refused_all site (hreq ▸ hq) hcur
        (MessageHeaders.uncut_of_init rfl t) hm
      have hlate : decide ((h ++ t).length ≤ t.length) = false := by
        rw [decide_eq_false_iff_not, List.length_append]
        omega
      refine ⟨c₁.log, hkept.quiet, by rw [hloop]; exact hclosed, ?_⟩
      rw [hloop, hlog, hbusy, hlate]
      rfl
  · obtain ⟨hclosed, hlog⟩ := hin.awaits.refused_all site (hin.request ▸ hq) rfl hu'.current hn
    refine ⟨c.log, hk.quiet, hclosed, ?_⟩
    rw [hlog]
    simp [hle]

/-- **A chunked request that expects 100, of which a chunk is refused**: the last byte of the part
`t`, noticed with `d`. -/
theorem servedOnce_chunk_refused {d : Char} {u : List Char} (hw : RxRequest.init.Wants h q)
    (hq : q.Chunked) (hexpect : q.expectContinue) (hkeep : q.keepAlive)
    (ht : Awaits (some d) .init t) (hs : s ≠ []) (hbytes : bytes inputs ++ s = h ++ t)
    (hu : Undivided site (.ready code transmitting) (inputs ++ [.read (s ++ d :: u)]))
    (post : List Input) :
    ServedOnce h.length
        (run site (.ready code transmitting) (inputs ++ .read (s ++ d :: u) :: post)).log ↔
      h.length ≤ (bytes inputs).length ∧
        (run site (.ready code transmitting) inputs).transmitting = false := by
  have hin := run_inExpected site hw hq hexpect hkeep ht hs hbytes hu.left
  obtain ⟨log, hquiet, hclosed, hlog⟩ :=
    hin.refused site hq hexpect hkeep ht hs (hu inputs _ [] rfl) le_rfl
  have hlen : (bytes inputs).length + s.length = h.length + t.length := by
    rw [← List.length_append, hbytes, List.length_append]
  have hsame : s.length ≤ t.length ↔ h.length ≤ (bytes inputs).length := by omega
  rw [run_append, run_cons, step_read site hin.1.connected, log_run_closed site hclosed, hlog,
    hquiet.servedOnce_iff (by decide), Bool.and_eq_true, decide_eq_true_eq, Bool.not_eq_true',
    hsame]

end Camerasp.Http
