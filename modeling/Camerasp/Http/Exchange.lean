import Camerasp.Http.Server

/-!
# One request over many packets

A complete head `q` and the text `t` after it fix what the receiver does. The phases say where it
is when `s` is still to come: `InHead`, `InBody`, `InChunks`. Each has a lemma for a packet that
ends within the request, which leaves one of the phases, and one for the packet that ends it, which
brings the final response. A chunked request that does not expect 100 is answered after its head:
`InEarly.answered`, and from the next byte on `InEarly.parsed`.
-/

namespace Camerasp.Http

/-- A response other than 1xx that is sent. -/
def Event.isFinal : Event → Bool
  | .start _ => false
  | .response r sent => sent && 200 ≤ r.status

/-- No final response yet, and no request line begun from position `head` on. -/
structure Quiet (head : Nat) (log : List Event) : Prop where
  unanswered : log.countP Event.isFinal = 0
  inside : ∀ p, .start p ∈ log → p < head

/-- **One final response, and no request line begun from position `head` on.** -/
structure ServedOnce (head : Nat) (log : List Event) : Prop where
  answered : log.countP Event.isFinal = 1
  inside : ∀ p, .start p ∈ log → p < head

namespace Quiet

variable {head : Nat} {log : List Event}

theorem nil : Quiet head [] := ⟨rfl, fun _ hp => absurd hp List.not_mem_nil⟩

theorem start (hq : Quiet head log) {p : Nat} (hp : p < head) :
    Quiet head (log ++ [.start p]) := by
  refine ⟨by simp [hq.unanswered, Event.isFinal], fun p' hp' => ?_⟩
  rcases List.mem_append.mp hp' with h | h
  · exact hq.inside p' h
  · have heq : p' = p := by simpa using h
    exact heq ▸ hp

/-- A response that is not final, or not sent. -/
theorem response (hq : Quiet head log) {r : Response} {sent : Bool}
    (hr : Event.isFinal (.response r sent) = false) : Quiet head (log ++ [.response r sent]) := by
  refine ⟨by simp [hq.unanswered, hr], fun p hp => hq.inside p ?_⟩
  simpa using hp

/-- **With the final response the request is served, if it is sent.** -/
theorem servedOnce_iff (hq : Quiet head log) {r : Response} {sent : Bool} (hr : 200 ≤ r.status) :
    ServedOnce head (log ++ [.response r sent]) ↔ sent = true := by
  have hcount : (log ++ [Event.response r sent]).countP Event.isFinal = if sent then 1 else 0 := by
    cases sent <;> simp [hq.unanswered, Event.isFinal, hr]
  constructor
  · intro h
    have hone := h.answered
    rw [hcount] at hone
    cases sent
    · exact absurd hone (by simp)
    · rfl
  · rintro rfl
    refine ⟨hcount, fun p hp => hq.inside p ?_⟩
    simpa using hp

end Quiet

/-- A request line begun too late stays in the log. -/
theorem not_servedOnce {head p : Nat} {log : List Event} (hp : .start p ∈ log) (h : head ≤ p) :
    ¬ ServedOnce head log := by
  intro hs
  have := hs.inside p hp
  omega

/-! ## Phases -/

/-- The connection is open, and has been quiet so far. -/
structure Kept (head : Nat) (c : Connection) : Prop where
  connected : c.connected
  notPending : c.disconnectPending = false
  quiet : Quiet head c.log

/-- `h ++ t` is still to come: with `h` the head is complete. -/
inductive InHead (q : RxRequest) (head : Nat) (t : List Char) : Connection → List Char → Prop
  | intro {c code q₀ h} (hrx : c.rx = { Receiver.cleared code with request := q₀ })
      (hv : q₀.valid = false) (hw : q₀.Wants h q) (hpos : c.received + h.length = head) :
      InHead q head t c (h ++ t)

/-- The head is complete, and `s` is the rest of the body. -/
inductive InBody (q : RxRequest) (n : Nat) : Connection → List Char → Prop
  | intro {c code w s} (hrx : c.rx = { Receiver.cleared code with request := q, body := w })
      (hlen : w.length + s.length = n) : InBody q n c s

/-- From `k` on, `s` is the rest of the chunks; or the last byte of `s` is refused, which the
receiver notices with the byte `d` behind it. -/
inductive Awaits : Option Char → RxChunk → List Char → Prop
  | last {k s c} (hw : k.Wants s c) (hl : c.header.isLast) : Awaits none k s
  | refused {k s d} (hr : k.Refuses s d) : Awaits (some d) k s
  | more {o k s c t} (hw : k.Wants s c) (hl : c.header.isLast = false) (ht : Awaits o .init t) :
      Awaits o k (s ++ t)

/-- The head is answered with 100, and `s` is the rest of the chunks. -/
structure InChunks (q : RxRequest) (o : Option Char) (c : Connection) (s : List Char) : Prop where
  request : c.rx.request = q
  awaits : Awaits o c.rx.current s

/-- The packet does not begin with a line end in the middle of a field. -/
def Connection.Uncut (c : Connection) (b : List Char) : Prop :=
  c.rx.request.Uncut b ∧ c.rx.chunk.Uncut b

open Server

variable (site : Site) {c : Connection} {q : RxRequest} {head n : Nat} {t s b b' : List Char}
  {o : Option Char}

theorem Kept.note (hk : Kept head c) (hpos : c.received < head) : Kept head (note c) := by
  rcases note_eq c with h | h
  · rw [h]
    exact hk
  · rw [h]
    exact ⟨hk.connected, hk.notPending, hk.quiet.start hpos⟩

/-! ## The head -/

/-- **A packet that ends within the head.** -/
theorem InHead.part {w : List Char} {code : Nat} {q₀ : RxRequest}
    (hrx : c.rx = { Receiver.cleared code with request := q₀ }) (hv : q₀.valid = false)
    (hw : q₀.Wants (b ++ w) q) (hne : w ≠ []) (hpos : c.received + (b ++ w).length = head)
    (hu : q₀.Uncut b) (hk : Kept head c) (hn : b.length ≤ n) :
    Kept head (receiveLoop site n c b) ∧ InHead q head t (receiveLoop site n c b) (w ++ t) := by
  rw [List.length_append] at hpos
  have hlen := List.length_pos_of_ne_nil hne
  by_cases hb : b = []
  · subst hb
    rw [receiveLoop_nil]
    exact ⟨hk, .intro hrx hv hw (by simpa using hpos)⟩
  · obtain ⟨m, rfl⟩ : ∃ m, n = m + 1 :=
      ⟨n - 1, by have := List.length_pos_of_ne_nil hb; omega⟩
    obtain ⟨q₁, hreceive, hwants, hv₁⟩ :=
      Receiver.receive_head_part (x := c.rx) (by rw [hrx]; exact hv) (by rw [hrx]; exact hw) hne
        (by rw [hrx]; exact hu)
    have hkept := hk.note (c := c) (by omega)
    rw [receiveLoop_round site hb hreceive (by simp), receiveLoop_nil]
    refine ⟨⟨hkept.connected, hkept.notPending, hkept.quiet⟩, ?_⟩
    refine .intro (show _ = { Receiver.cleared code with request := q₁ } by simp [handle, hrx])
      hv₁ hwants ?_
    simp only [handle, note_received, List.length_nil]
    omega

theorem RxRequest.Uncut.left {h u : List Char} (hu : q.Uncut (h ++ u)) (hne : h ≠ []) :
    q.Uncut h :=
  MessageHeaders.Uncut.left hu hne

theorem RxChunk.Uncut.left {k : RxChunk} {h u : List Char} (hu : k.Uncut (h ++ u)) (hne : h ≠ []) :
    k.Uncut h :=
  MessageHeaders.Uncut.left hu hne

/-- With `h` the head is complete, and the receiver goes on with `u`. -/
structure Completes (q : RxRequest) (head : Nat) (c : Connection) (h u : List Char) : Prop where
  ne_nil : h ≠ []
  pos : c.received + h.length = head
  receive : ∃ code, c.rx.receive (h ++ u) =
    Receiver.receiveRest { Receiver.cleared code with request := q } true u

theorem Completes.note {h u : List Char} (hc : Completes q head c h u) (hk : Kept head c) :
    Kept head (note c) := by
  have hlen := List.length_pos_of_ne_nil hc.ne_nil
  have hpos := hc.pos
  exact Kept.note hk (by omega)

/-- **A packet with the last of the head.** -/
theorem completes {u h : List Char} {code : Nat} {q₀ : RxRequest}
    (hrx : c.rx = { Receiver.cleared code with request := q₀ }) (hv : q₀.valid = false)
    (hw : q₀.Wants h q) (hpos : c.received + h.length = head) (hu : c.Uncut (h ++ u)) :
    Completes q head c h u := by
  have hu₀ : q₀.Uncut h := RxRequest.Uncut.left (by simpa [hrx] using hu.1) hw.ne_nil
  refine ⟨hw.ne_nil, hpos, code, ?_⟩
  rw [Receiver.receive_head (x := c.rx) (by rw [hrx]; exact hv) (by rw [hrx]; exact hw)
    (by rw [hrx]; exact hu₀), hrx]

/-- The packet ends within the head, or completes it. -/
theorem InHead.packet (hin : InHead q head t c (b ++ b')) (hk : Kept head c) (hu : c.Uncut b)
    (hn : b.length ≤ n) :
    (Kept head (receiveLoop site n c b) ∧ InHead q head t (receiveLoop site n c b) b') ∨
      ∃ h u, b = h ++ u ∧ t = u ++ b' ∧ Completes q head c h u := by
  generalize hs : b ++ b' = s at hin
  cases hin with
  | @intro code q₀ h hrx hv hw hpos =>
    rcases Lib.cut_cases hs with ⟨u, rfl, rfl⟩ | ⟨w, hne, rfl, rfl⟩
    · exact .inr ⟨h, u, rfl, rfl, completes hrx hv hw hpos hu⟩
    · exact .inl (InHead.part site hrx hv hw hne hpos (by simpa [hrx] using hu.1) hk hn)

/-- The rest of the request completes the head. -/
theorem InHead.completes (hin : InHead q head t c b) (hu : c.Uncut b) :
    ∃ h, b = h ++ t ∧ Completes q head c h t := by
  cases hin with
  | @intro code q₀ h hrx hv hw hpos => exact ⟨h, rfl, Http.completes hrx hv hw hpos hu⟩

/-! ## A request that is not chunked -/

/-- In the head or in the body of a request with the body `t`. -/
def InPlain (q : RxRequest) (head : Nat) (t : List Char) (c : Connection) (s : List Char) : Prop :=
  Kept head c ∧ (InHead q head t c s ∨ InBody q t.length c s)

/-- A packet with which the request is complete. -/
theorem receiveLoop_valid {x : Receiver} (hb : b ≠ []) (hn : b.length ≤ n)
    (hreceive : c.rx.receive b = (.valid, x, [])) (hk : x.request.keepAlive)
    (ht : x.request.isTrace → 200 ≤ x.responseCode) :
    ∃ r, 200 ≤ r.status ∧
      (receiveLoop site n c b).log = (note c).log ++ [.response r !c.transmitting] := by
  obtain ⟨m, rfl⟩ : ∃ m, n = m + 1 :=
    ⟨n - 1, by have := List.length_pos_of_ne_nil hb; omega⟩
  rw [receiveLoop_round site hb hreceive (by simp), receiveLoop_nil]
  obtain ⟨r, d, hr, -, heq⟩ := Connection.handle_valid (c := { note c with
    rx := x, received := (note c).received + (b.length - ([] : List Char).length) }) site hk ht
  refine ⟨r, hr, ?_⟩
  rw [heq]
  simp [Connection.answered]

/-- A packet after which the request is not complete. -/
theorem receiveLoop_incomplete {x : Receiver} (hb : b ≠ []) (hn : b.length ≤ n)
    (hreceive : c.rx.receive b = (.incomplete, x, [])) :
    receiveLoop site n c b =
      { note c with rx := x, received := (note c).received + b.length } := by
  obtain ⟨m, rfl⟩ : ∃ m, n = m + 1 :=
    ⟨n - 1, by have := List.length_pos_of_ne_nil hb; omega⟩
  rw [receiveLoop_round site hb hreceive (by simp), receiveLoop_nil]
  rfl

theorem InPlain.part (hin : InPlain q head t c (b ++ b')) (hq : q.Plain t.length) (hb' : b' ≠ [])
    (hu : c.Uncut b) (hn : b.length ≤ n) : InPlain q head t (receiveLoop site n c b) b' := by
  obtain ⟨hk, hin⟩ := hin
  have hlen := List.length_pos_of_ne_nil hb'
  rcases hin with hin | hin
  · rcases hin.packet site hk hu hn with ⟨hkept, hhead⟩ | ⟨h, u, rfl, rfl, hc⟩
    · exact ⟨hkept, .inl hhead⟩
    · obtain ⟨code, hreceive⟩ := hc.receive
      rw [Receiver.receiveRest_body_part hq (by simp [Receiver.cleared]; omega)] at hreceive
      have hkept := hc.note hk
      rw [receiveLoop_incomplete site (by simp [hc.ne_nil]) hn hreceive]
      exact ⟨⟨hkept.connected, hkept.notPending, hkept.quiet⟩,
        .inr (.intro rfl (by simp [Receiver.cleared]))⟩
  · generalize hs : b ++ b' = s at hin
    cases hin with
    | @intro code w _ hrx hsum =>
      subst hs
      rw [List.length_append] at hsum
      by_cases hb : b = []
      · subst hb
        rw [receiveLoop_nil]
        exact ⟨hk, .inr (.intro hrx (by simpa using hsum))⟩
      · have hv : c.rx.request.valid := by rw [hrx]; exact hq.valid
        have hreceive := Receiver.receive_of_valid (b := b) hv
        rw [Receiver.receiveRest_body_part (x := c.rx) (by rw [hrx]; exact hq)
          (by rw [hrx]; dsimp only; omega)] at hreceive
        rw [receiveLoop_incomplete site hb hn hreceive, note_of_valid hv]
        refine ⟨⟨hk.connected, hk.notPending, hk.quiet⟩, .inr ?_⟩
        refine .intro (show _ = { Receiver.cleared code with request := q, body := w ++ b } by
          simp [hrx]) ?_
        rw [List.length_append]
        omega

/-- **The packet with the end of the request brings the response.** -/
theorem InPlain.last (hin : InPlain q head t c b) (hq : q.Plain t.length) (hkeep : q.keepAlive)
    (hb : b ≠ []) (hu : c.Uncut b) (hn : b.length ≤ n) :
    ∃ log r, Quiet head log ∧ 200 ≤ r.status ∧
      (receiveLoop site n c b).log = log ++ [.response r !c.transmitting] := by
  obtain ⟨hk, hin⟩ := hin
  rcases hin with hin | hin
  · obtain ⟨h, rfl, hc⟩ := hin.completes hu
    obtain ⟨code, hreceive⟩ := hc.receive
    rw [Receiver.receiveRest_body hq (by simp [Receiver.cleared])] at hreceive
    obtain ⟨r, hr, hlog⟩ := receiveLoop_valid site hb hn hreceive
      (by rw [Receiver.withBody_keepAlive]; exact hkeep)
      (fun ht => by rw [Receiver.withBody_trace ht]; omega)
    exact ⟨_, r, (hc.note hk).quiet, hr, hlog⟩
  · cases hin with
    | @intro code w _ hrx hsum =>
      have hv : c.rx.request.valid := by rw [hrx]; exact hq.valid
      have hreceive := Receiver.receive_of_valid (b := b) hv
      rw [Receiver.receiveRest_body (x := c.rx) (by rw [hrx]; exact hq)
        (by rw [hrx]; exact hsum)] at hreceive
      obtain ⟨r, hr, hlog⟩ := receiveLoop_valid site hb hn hreceive
        (by rw [Receiver.withBody_keepAlive, hrx]; exact hkeep)
        (fun ht => by rw [Receiver.withBody_trace ht]; omega)
      rw [note_of_valid hv] at hlog
      exact ⟨_, r, hk.quiet, hr, hlog⟩

/-! ## Chunks -/

theorem Awaits.ne_nil {k : RxChunk} (ha : Awaits o k s) : s ≠ [] := by
  cases ha with
  | last hw => exact hw.ne_nil
  | refused hr => exact hr.ne_nil
  | more hw => simp [hw.ne_nil]

/-- The part of a chunk that a packet ends with. -/
theorem receiveLoop_chunk_part {k : RxChunk} {d : RxChunk} (hq : c.rx.request.Chunked)
    (hk : c.rx.current = k) (hw : k.Wants (b ++ b') d) (hb' : b' ≠ []) (hu : k.Uncut b)
    (hn : b.length ≤ n) :
    ∃ x m, receiveLoop site n c b = { c with rx := x, received := m } ∧
      x.request = c.rx.request ∧ x.current.Wants b' d := by
  subst hk
  by_cases hb : b = []
  · subst hb
    exact ⟨c.rx, c.received, receiveLoop_nil site n c, rfl, hw⟩
  · have hreceive := Receiver.receive_of_valid (b := b) hq.valid
    obtain ⟨d₁, hrest, hwants, hvalid⟩ := Receiver.receiveRest_chunk_part hq hw hb' hu
    rw [hrest] at hreceive
    rw [receiveLoop_incomplete site hb hn hreceive, note_of_valid hq.valid]
    refine ⟨_, _, rfl, rfl, ?_⟩
    simpa [Receiver.current, hvalid] using hwants

/-- The part of a chunk that is refused that a packet ends with. -/
theorem receiveLoop_chunk_refused_part {k : RxChunk} {d : Char} (hq : c.rx.request.Chunked)
    (hk : c.rx.current = k) (hr : k.Refuses (b ++ b') d) (hb' : b' ≠ []) (hu : k.Uncut b)
    (hn : b.length ≤ n) :
    ∃ x m, receiveLoop site n c b = { c with rx := x, received := m } ∧
      x.request = c.rx.request ∧ x.current.Refuses b' d := by
  subst hk
  by_cases hb : b = []
  · subst hb
    exact ⟨c.rx, c.received, receiveLoop_nil site n c, rfl, hr⟩
  · have hreceive := Receiver.receive_of_valid (b := b) hq.valid
    obtain ⟨d₁, hrest, hrefuses, hvalid⟩ := Receiver.receiveRest_chunk_refused_part hq hr hb' hu
    rw [hrest] at hreceive
    rw [receiveLoop_incomplete site hb hn hreceive, note_of_valid hq.valid]
    refine ⟨_, _, rfl, rfl, ?_⟩
    simpa [Receiver.current, hvalid] using hrefuses

/-- A round with the rest of a chunk. -/
theorem receiveLoop_chunk {k d : RxChunk} (hq : c.rx.request.Chunked) (hk : c.rx.current = k)
    (hw : k.Wants s d) (hu : k.Uncut s) (hn : (s ++ t).length ≤ n) :
    ∃ m, t.length ≤ m ∧ receiveLoop site n c (s ++ t) =
      receiveLoop site m (handle site
        { c with rx := { c.rx with chunk := d }, received := c.received + s.length } .chunk) t := by
  subst hk
  have hlen := List.length_pos_of_ne_nil hw.ne_nil
  rw [List.length_append] at hn
  obtain ⟨m, rfl⟩ : ∃ m, n = m + 1 := ⟨n - 1, by omega⟩
  have hreceive := Receiver.receive_of_valid (b := s ++ t) hq.valid
  rw [Receiver.receiveRest_chunk hq hw hu] at hreceive
  refine ⟨m, by omega, ?_⟩
  rw [receiveLoop_round site (by simp [hw.ne_nil]) hreceive (by simp), note_of_valid hq.valid]
  simp

/-- **A packet that ends within the chunks** only moves the receiver on. -/
theorem Awaits.part {k : RxChunk} (ha : Awaits o k (b ++ b')) (hq : c.rx.request.Chunked)
    (hk : c.rx.current = k) (hb' : b' ≠ []) (hu : k.Uncut b) (hn : b.length ≤ n) :
    ∃ x m, receiveLoop site n c b = { c with rx := x, received := m } ∧
      x.request = c.rx.request ∧ Awaits o x.current b' := by
  generalize hs : b ++ b' = s at ha
  induction ha generalizing c b n with
  | last hw hl =>
    subst hs
    obtain ⟨x, m, hloop, hx, hwants⟩ := receiveLoop_chunk_part site hq hk hw hb' hu hn
    exact ⟨x, m, hloop, hx, .last hwants hl⟩
  | refused hr =>
    subst hs
    obtain ⟨x, m, hloop, hx, hrefuses⟩ :=
      receiveLoop_chunk_refused_part site hq hk hr hb' hu hn
    exact ⟨x, m, hloop, hx, .refused hrefuses⟩
  | @more o k s d t hw hl ht ih =>
    rcases Lib.cut_cases hs with ⟨u, rfl, rfl⟩ | ⟨w, hne, rfl, rfl⟩
    · obtain ⟨m, hm, hloop⟩ := receiveLoop_chunk site hq hk hw (hu.left hw.ne_nil) hn
      rw [Connection.handle_chunk site hl] at hloop
      obtain ⟨x, m', hrest, hx, hwants⟩ :=
        ih (c := { c with rx := { c.rx with chunk := d }, received := c.received + s.length })
          hq (Receiver.current_of_valid hw.valid) (MessageHeaders.uncut_of_init rfl u) hm rfl
      exact ⟨x, m', hloop.trans hrest, hx, hwants⟩
    · obtain ⟨x, m, hloop, hx, hwants⟩ := receiveLoop_chunk_part site hq hk hw hne hu hn
      exact ⟨x, m, hloop, hx, .more hwants hl ht⟩

/-- **The packet with the last chunk brings the response.** -/
theorem Awaits.all {k : RxChunk} (ha : Awaits none k b) (hq : c.rx.request.Chunked)
    (hkeep : c.rx.request.keepAlive) (hk : c.rx.current = k) (hu : k.Uncut b)
    (hn : b.length ≤ n) :
    ∃ r, 200 ≤ r.status ∧
      (receiveLoop site n c b).log = c.log ++ [.response r !c.transmitting] := by
  generalize ho : (none : Option Char) = o at ha
  induction ha generalizing c n with
  | @last k s d hw hl =>
    obtain ⟨m, -, hloop⟩ := receiveLoop_chunk site (t := []) hq hk hw hu (by simpa using hn)
    obtain ⟨r, hr, heq⟩ := Connection.handle_lastChunk (c := { c with
      rx := { c.rx with chunk := d }, received := c.received + s.length }) site hkeep hl
    refine ⟨r, hr, ?_⟩
    rw [List.append_nil, heq, receiveLoop_nil] at hloop
    rw [hloop]
    rfl
  | refused => cases ho
  | @more o k s d t hw hl ht ih =>
    obtain ⟨m, hm, hloop⟩ := receiveLoop_chunk site hq hk hw (hu.left hw.ne_nil) hn
    rw [Connection.handle_chunk site hl] at hloop
    rw [hloop]
    exact ih (c := { c with rx := { c.rx with chunk := d }, received := c.received + s.length })
      hq hkeep (Receiver.current_of_valid hw.valid) (MessageHeaders.uncut_of_init rfl t) hm ho

theorem Connection.Uncut.current (hu : c.Uncut b) : c.rx.current.Uncut b := by
  unfold Receiver.current
  split
  · exact MessageHeaders.uncut_of_init rfl b
  · exact hu.2

/-! ## A chunked request that expects 100 -/

/-- In the head or in the chunks of a request with the chunks `t`. -/
def InExpected (q : RxRequest) (head : Nat) (o : Option Char) (t : List Char) (c : Connection)
    (s : List Char) : Prop :=
  Kept head c ∧ (InHead q head t c s ∨ InChunks q o c s ∧ s.length ≤ t.length)

/-- The round that completes the head: 100 is sent, and the chunks follow. -/
theorem receiveLoop_expected {h u : List Char} (hc : Completes q head c h u) (hk : Kept head c)
    (hq : q.Chunked) (hexpect : q.expectContinue) (hkeep : q.keepAlive)
    (hn : (h ++ u).length ≤ n) :
    ∃ m c₁, u.length ≤ m ∧ receiveLoop site n c (h ++ u) = receiveLoop site m c₁ u ∧
      Kept head c₁ ∧ c₁.rx.request = q ∧ c₁.rx.current = .init ∧ c₁.transmitting = true := by
  have hlen := List.length_pos_of_ne_nil hc.ne_nil
  rw [List.length_append] at hn
  obtain ⟨m, rfl⟩ : ∃ m, n = m + 1 := ⟨n - 1, by omega⟩
  obtain ⟨code, hreceive⟩ := hc.receive
  rw [Receiver.receiveRest_chunked hq rfl rfl, if_pos hexpect] at hreceive
  have hkept := hc.note hk
  have hsmall : q.contentLength ≤ Handlers.maxLength := by
    rw [hq.length]
    simp
  have hround := receiveLoop_round site (n := m) (by simp [hc.ne_nil]) hreceive (by simp)
  have hexpected := Connection.handle_expectContinue (c := { note c with
    rx := { Receiver.cleared code with request := q, responseCode := 100 }
    received := (note c).received + ((h ++ u).length - u.length) }) site hkeep hsmall
  rw [hexpected] at hround
  refine ⟨m, _, by omega, hround, ⟨hkept.connected, hkept.notPending, ?_⟩, rfl, rfl, rfl⟩
  exact hkept.quiet.response (by simp [Event.isFinal])

theorem InExpected.part (hin : InExpected q head o t c (b ++ b')) (hq : q.Chunked)
    (hexpect : q.expectContinue) (hkeep : q.keepAlive) (ht : Awaits o .init t) (hb' : b' ≠ [])
    (hu : c.Uncut b) (hn : b.length ≤ n) : InExpected q head o t (receiveLoop site n c b) b' := by
  obtain ⟨hk, hin | ⟨hin, hle⟩⟩ := hin
  · rcases hin.packet site hk hu hn with ⟨hkept, hhead⟩ | ⟨h, u, rfl, rfl, hc⟩
    · exact ⟨hkept, .inl hhead⟩
    · obtain ⟨m, c₁, hm, hloop, hkept, hreq, hcur, -⟩ :=
        receiveLoop_expected site hc hk hq hexpect hkeep hn
      obtain ⟨x, p, hrest, hx, hwants⟩ := ht.part site (hreq ▸ hq) hcur hb'
        (MessageHeaders.uncut_of_init rfl u) hm
      rw [hloop, hrest]
      exact ⟨⟨hkept.connected, hkept.notPending, hkept.quiet⟩,
        .inr ⟨⟨hx.trans hreq, hwants⟩, by simp⟩⟩
  · obtain ⟨x, m, hloop, hx, hwants⟩ :=
      hin.awaits.part site (hin.request ▸ hq) rfl hb' hu.current hn
    rw [List.length_append] at hle
    rw [hloop]
    exact ⟨⟨hk.connected, hk.notPending, hk.quiet⟩, .inr ⟨⟨hx.trans hin.request, hwants⟩, by omega⟩⟩

/-- **The packet with the last chunk brings the response**, which is dropped where 100 is still
being written: always, where the head was not complete before. -/
theorem InExpected.last (hin : InExpected q head none t c b) (hq : q.Chunked)
    (hexpect : q.expectContinue) (hkeep : q.keepAlive) (ht : Awaits none .init t) (hu : c.Uncut b)
    (hn : b.length ≤ n) :
    ∃ log r, Quiet head log ∧ 200 ≤ r.status ∧ (receiveLoop site n c b).log =
      log ++ [.response r (decide (b.length ≤ t.length) && !c.transmitting)] := by
  obtain ⟨hk, hin | ⟨hin, hle⟩⟩ := hin
  · obtain ⟨h, rfl, hc⟩ := hin.completes hu
    have hlen := List.length_pos_of_ne_nil hc.ne_nil
    obtain ⟨m, c₁, hm, hloop, hkept, hreq, hcur, hbusy⟩ :=
      receiveLoop_expected site hc hk hq hexpect hkeep hn
    obtain ⟨r, hr, hlog⟩ := ht.all site (hreq ▸ hq) (hreq ▸ hkeep) hcur
      (MessageHeaders.uncut_of_init rfl t) hm
    have hlate : decide ((h ++ t).length ≤ t.length) = false := by
      rw [decide_eq_false_iff_not, List.length_append]
      omega
    refine ⟨c₁.log, r, hkept.quiet, hr, ?_⟩
    rw [hloop, hlog, hbusy, hlate]
    rfl
  · obtain ⟨r, hr, hlog⟩ := hin.awaits.all site (hin.request ▸ hq) (hin.request ▸ hkeep)
      rfl hu.current hn
    refine ⟨c.log, r, hk.quiet, hr, ?_⟩
    rw [hlog]
    simp [hle]

/-! ## A chunked request that does not -/

/-- In the head of a request with the chunks `t`; or the request has been answered, and its chunks
are still to come; or one of them has been taken for a request. -/
inductive InEarly (q : RxRequest) (head : Nat) (t : List Char) : Connection → List Char → Prop
  | head {c : Connection} {s : List Char} (hk : Kept head c) (hin : InHead q head t c s) :
      InEarly q head t c s
  | answered {c : Connection} {code : Nat} (hconnected : c.connected)
      (hpending : c.disconnectPending = false) (hrx : c.rx = .cleared code)
      (hpos : c.received = head) : InEarly q head t c t
  | parsed {c : Connection} {s : List Char} {p : Nat} (hp : .start p ∈ c.log) (hle : head ≤ p) :
      InEarly q head t c s

/-- **A cleared receiver takes the next byte for the start of a request.** -/
theorem start_of_cleared {code : Nat} (hrx : c.rx = .cleared code) (hb : b ≠ [])
    (hn : b.length ≤ n) : .start c.received ∈ (receiveLoop site n c b).log := by
  obtain ⟨m, rfl⟩ : ∃ m, n = m + 1 :=
    ⟨n - 1, by have := List.length_pos_of_ne_nil hb; omega⟩
  have hnote : note c = { c with log := c.log ++ [.start c.received] } := by
    unfold note
    rw [hrx]
    rfl
  refine (log_receiveLoop_succ site m c hb).subset ?_
  rw [hnote]
  simp

theorem InEarly.part (hin : InEarly q head t c (b ++ b')) (hq : q.Chunked)
    (hexpect : q.expectContinue = false) (hkeep : q.keepAlive) (hu : c.Uncut b)
    (hn : b.length ≤ n) : InEarly q head t (receiveLoop site n c b) b' := by
  generalize hs : b ++ b' = s at hin
  cases hin with
  | head hk hin =>
    subst hs
    rcases hin.packet site hk hu hn with ⟨hkept, hhead⟩ | ⟨h, u, rfl, rfl, hc⟩
    · exact .head hkept hhead
    · have hlen := List.length_pos_of_ne_nil hc.ne_nil
      have hpos := hc.pos
      rw [List.length_append] at hn
      obtain ⟨m, rfl⟩ : ∃ m, n = m + 1 := ⟨n - 1, by omega⟩
      obtain ⟨code, hreceive⟩ := hc.receive
      rw [Receiver.receiveRest_chunked hq rfl rfl, if_neg (by simp [hexpect])] at hreceive
      have hkept := hc.note hk
      have hround := receiveLoop_round site (n := m) (by simp [hc.ne_nil]) hreceive (by simp)
      obtain ⟨r, d, -, hd, heq⟩ := Connection.handle_valid (c := { note c with
        rx := { Receiver.cleared code with request := q }
        received := (note c).received + ((h ++ u).length - u.length) }) site hkeep
        (fun ht => absurd ht (by simp [hq.notTrace]))
      rw [heq] at hround
      rw [hround]
      have hpos₁ : (note c).received + ((h ++ u).length - u.length) = head := by
        rw [note_received, List.length_append]
        omega
      by_cases hmore : u = []
      · subst hmore
        rw [receiveLoop_nil]
        exact .answered hkept.connected ((hd hq.notTrace).trans hkept.notPending) rfl hpos₁
      · exact .parsed (start_of_cleared site rfl hmore (by omega)) hpos₁.ge
  | answered hconnected hpending hrx hpos =>
    by_cases hb : b = []
    · subst hb hs
      rw [receiveLoop_nil]
      exact .answered hconnected hpending hrx hpos
    · exact .parsed (start_of_cleared site hrx hb hn) hpos.ge
  | parsed hp hle => exact .parsed ((log_receiveLoop site n c b).subset hp) hle

/-! ## Runs -/

/-- No packet of the run begins with a line end in the middle of a field. -/
def Undivided (site : Site) (c : Connection) (inputs : List Input) : Prop :=
  ∀ pre b post, inputs = pre ++ .read b :: post → (run site c pre).Uncut b

theorem Undivided.tail {i : Input} {inputs : List Input} (h : Undivided site c (i :: inputs)) :
    Undivided site (step site c i) inputs := by
  rintro pre b post rfl
  exact h (i :: pre) b post rfl

theorem Undivided.nil : Undivided site c [] := by
  intro pre b post h
  simp at h

theorem Undivided.read {inputs : List Input} (hu : c.Uncut b)
    (h : Undivided site (step site c (.read b)) inputs) : Undivided site c (.read b :: inputs) := by
  intro pre b' post heq
  cases pre with
  | nil =>
    cases heq
    exact hu
  | cons i pre =>
    cases heq
    exact h pre b' post rfl

theorem Undivided.written {inputs : List Input} (h : Undivided site (step site c .written) inputs) :
    Undivided site c (.written :: inputs) := by
  intro pre b post heq
  cases pre with
  | nil => cases heq
  | cons i pre =>
    cases heq
    exact h pre b post rfl

theorem Undivided.left {inputs post : List Input} (h : Undivided site c (inputs ++ post)) :
    Undivided site c inputs := by
  rintro pre b post' rfl
  exact h pre b (post' ++ post) (by simp)

/-- **A phase that every packet within the request keeps, and the end of a write.** -/
theorem run_part {P : Connection → List Char → Prop}
    (hread : ∀ c b s, s ≠ [] → c.Uncut b → P c (b ++ s) → P (step site c (.read b)) s)
    (hwritten : ∀ c s, P c s → P (step site c .written) s) {inputs : List Input}
    (hu : Undivided site c inputs) (hs : s ≠ []) (hP : P c (bytes inputs ++ s)) :
    P (run site c inputs) s := by
  induction inputs generalizing c with
  | nil => exact hP
  | cons i inputs ih =>
    refine ih hu.tail ?_
    cases i with
    | read b =>
      refine hread c b _ (by simp [hs]) (hu [] b inputs rfl) ?_
      rw [← List.append_assoc]
      exact hP
    | written => exact hwritten c _ hP

theorem run_append (c : Connection) (pre post : List Input) :
    run site c (pre ++ post) = run site (run site c pre) post := by
  simp [run]

@[simp] theorem run_cons (c : Connection) (i : Input) (inputs : List Input) :
    run site c (i :: inputs) = run site (step site c i) inputs := rfl

/-- Without a byte nothing happens that the log has. -/
theorem log_run_of_bytes_nil {post : List Input} (hpost : bytes post = []) (c : Connection) :
    (run site c post).log = c.log := by
  induction post generalizing c with
  | nil => rfl
  | cons i post ih =>
    cases i with
    | read b =>
      obtain ⟨rfl, hrest⟩ := List.append_eq_nil_iff.mp hpost
      have hskip : step site c (.read []) = c := by
        unfold step receiveHandler
        dsimp only
        rw [receiveLoop_nil]
        exact ite_self c
      rw [run_cons, hskip, ih hrest]
    | written =>
      rw [run_cons, ih hpost]
      unfold step Connection.shutdown
      dsimp only
      split <;> rfl

theorem step_read (hc : c.connected) (b : List Char) :
    step site c (.read b) = receiveLoop site b.length c b := by
  simp [step, receiveHandler, hc]

theorem Kept.written (hk : Kept head c) : Kept head (step site c .written) := by
  unfold step
  rw [if_neg (by simp [hk.notPending])]
  exact ⟨hk.connected, hk.notPending, hk.quiet⟩

theorem InHead.written (hk : Kept head c) (hin : InHead q head t c s) :
    InHead q head t (step site c .written) s := by
  unfold step
  rw [if_neg (by simp [hk.notPending])]
  cases hin with
  | intro hrx hv hw hpos => exact .intro hrx hv hw hpos

theorem InPlain.written (hin : InPlain q head t c s) :
    InPlain q head t (step site c .written) s := by
  obtain ⟨hk, hin⟩ := hin
  refine ⟨hk.written site, hin.imp (.written site hk) fun hin => ?_⟩
  unfold step
  rw [if_neg (by simp [hk.notPending])]
  cases hin with
  | intro hrx hlen => exact .intro hrx hlen

theorem InExpected.written (hin : InExpected q head o t c s) :
    InExpected q head o t (step site c .written) s := by
  obtain ⟨hk, hin⟩ := hin
  refine ⟨hk.written site, hin.imp (.written site hk) fun hin => ⟨?_, hin.2⟩⟩
  unfold step
  rw [if_neg (by simp [hk.notPending])]
  exact ⟨hin.1.request, hin.1.awaits⟩

theorem InEarly.written (hin : InEarly q head t c s) :
    InEarly q head t (step site c .written) s := by
  cases hin with
  | head hk hin => exact .head (hk.written site) (hin.written site hk)
  | answered hconnected hpending hrx hpos =>
    unfold step
    rw [if_neg (by simp [hpending])]
    exact .answered hconnected hpending hrx hpos
  | parsed hp hle =>
    refine .parsed ?_ hle
    exact (log_run site c [.written]).subset hp

variable {h : List Char} {code : Nat} {transmitting : Bool} {inputs : List Input}

/-- Before the first byte. -/
theorem inHead_ready (hw : RxRequest.init.Wants h q) :
    Kept h.length (.ready code transmitting) ∧
      InHead q h.length t (.ready code transmitting) (h ++ t) :=
  ⟨⟨rfl, rfl, .nil⟩, .intro rfl rfl hw (Nat.zero_add _)⟩

/-- **A request that is not chunked.** -/
theorem servedOnce_plain (hw : RxRequest.init.Wants h q) (hq : q.Plain t.length)
    (hkeep : q.keepAlive) (hb : b ≠ []) (htext : bytes inputs ++ b = h ++ t)
    (hu : Undivided site (.ready code transmitting) (inputs ++ [.read b])) {post : List Input}
    (hpost : bytes post = []) :
    ServedOnce h.length (run site (.ready code transmitting) (inputs ++ .read b :: post)).log ↔
      (run site (.ready code transmitting) inputs).transmitting = false := by
  have hin : InPlain q h.length t (run site (.ready code transmitting) inputs) b := by
    refine run_part site (fun c b' s hs hu hin => ?_) (fun c s hin => hin.written site)
      hu.left hb ?_
    · rw [step_read site hin.1.connected]
      exact hin.part site hq hs hu le_rfl
    · rw [htext]
      exact (inHead_ready hw).imp id .inl
  obtain ⟨log, r, hquiet, hr, hlog⟩ :=
    hin.last site hq hkeep hb (hu inputs b [] rfl) le_rfl
  rw [run_append, run_cons, log_run_of_bytes_nil site hpost, step_read site hin.1.connected, hlog,
    hquiet.servedOnce_iff hr]
  simp

/-- Within a chunked request that expects 100. -/
theorem run_inExpected (hw : RxRequest.init.Wants h q) (hq : q.Chunked)
    (hexpect : q.expectContinue) (hkeep : q.keepAlive) (ht : Awaits o .init t) (hs : s ≠ [])
    (htext : bytes inputs ++ s = h ++ t)
    (hu : Undivided site (.ready code transmitting) inputs) :
    InExpected q h.length o t (run site (.ready code transmitting) inputs) s := by
  refine run_part site (fun c b' s hs hu hin => ?_) (fun c s hin => hin.written site) hu hs ?_
  · rw [step_read site hin.1.connected]
    exact hin.part site hq hexpect hkeep ht hs hu le_rfl
  · rw [htext]
    exact (inHead_ready hw).imp id .inl

/-- **A chunked request that expects 100.** -/
theorem servedOnce_expected (hw : RxRequest.init.Wants h q) (hq : q.Chunked)
    (hexpect : q.expectContinue) (hkeep : q.keepAlive) (ht : Awaits none .init t) (hb : b ≠ [])
    (htext : bytes inputs ++ b = h ++ t)
    (hu : Undivided site (.ready code transmitting) (inputs ++ [.read b])) {post : List Input}
    (hpost : bytes post = []) :
    ServedOnce h.length (run site (.ready code transmitting) (inputs ++ .read b :: post)).log ↔
      h.length ≤ (bytes inputs).length ∧
        (run site (.ready code transmitting) inputs).transmitting = false := by
  have hin := run_inExpected site hw hq hexpect hkeep ht hb htext hu.left
  obtain ⟨log, r, hquiet, hr, hlog⟩ :=
    hin.last site hq hexpect hkeep ht (hu inputs b [] rfl) le_rfl
  have hlen : (bytes inputs).length + b.length = h.length + t.length := by
    rw [← List.length_append, htext, List.length_append]
  rw [run_append, run_cons, log_run_of_bytes_nil site hpost, step_read site hin.1.connected, hlog,
    hquiet.servedOnce_iff hr, Bool.and_eq_true, decide_eq_true_eq, Bool.not_eq_true']
  have hsame : b.length ≤ t.length ↔ h.length ≤ (bytes inputs).length := by omega
  rw [hsame]

theorem InEarly.read (hin : InEarly q head t c (b ++ b')) (hq : q.Chunked)
    (hexpect : q.expectContinue = false) (hkeep : q.keepAlive) (hu : c.Uncut b) :
    InEarly q head t (step site c (.read b)) b' := by
  by_cases hc : c.connected
  · rw [step_read site hc]
    exact hin.part site hq hexpect hkeep hu le_rfl
  · have hskip : step site c (.read b) = c := by simp [step, hc]
    rw [hskip]
    generalize b ++ b' = s at hin
    cases hin with
    | head hk => exact absurd hk.connected hc
    | answered hconnected => exact absurd hconnected hc
    | parsed hp hle => exact .parsed hp hle

/-- Once all has been read, a chunk has been taken for a request. -/
theorem InEarly.start (hin : InEarly q head t c s) (hs : s = []) (ht : t ≠ []) :
    ∃ p, head ≤ p ∧ .start p ∈ c.log := by
  cases hin with
  | head hk hin =>
    cases hin with
    | intro => exact absurd hs (by simp [ht])
  | answered => exact absurd hs ht
  | parsed hp hle => exact ⟨_, hle, hp⟩

/-- **A chunked request that does not expect 100**, with a packet that goes beyond its head. -/
theorem not_servedOnce_early (hw : RxRequest.init.Wants h q) (hq : q.Chunked)
    (hexpect : q.expectContinue = false) (hkeep : q.keepAlive) (ht : t ≠ [])
    (hb : b ≠ []) (htext : bytes inputs ++ b = h ++ t)
    (hu : Undivided site (.ready code transmitting) (inputs ++ [.read b])) (post : List Input) :
    ¬ ServedOnce h.length
      (run site (.ready code transmitting) (inputs ++ .read b :: post)).log := by
  obtain ⟨hk, hhead⟩ := @inHead_ready q t h code transmitting hw
  have hin : InEarly q h.length t (run site (.ready code transmitting) inputs) b := by
    refine run_part site (fun c b' s _ hu hin => hin.read site hq hexpect hkeep hu)
      (fun c s hin => hin.written site) hu.left hb ?_
    rw [htext]
    exact .head hk hhead
  rw [← List.append_nil b] at hin
  obtain ⟨p, hle, hp⟩ := (hin.read site hq hexpect hkeep (hu inputs b [] rfl)).start rfl ht
  rw [run_append, run_cons]
  exact not_servedOnce ((log_run site _ post).subset hp) hle

end Camerasp.Http
