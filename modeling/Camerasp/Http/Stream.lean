import Camerasp.Http.Client

/-!
# Streams of responses

`Expects x s ds` says that from the receiver `x` the text `s` consists of responses that announce
their bodies, and that `ds` is what the client is to be given of them. It holds in the middle of a
response as well, so it is what a packet keeps (`Expects.receiveLoop`).

Results:
* `run_expects`: **the client is given exactly the responses and chunks of the stream, in their
  order**, however it is cut into packets, as long as no packet begins with a line end in the
  middle of a field.
* `given_bare_iff`: a response that announces no body, and has none, is given to the client if and
  only if a packet ends with it. Otherwise the bytes after it are taken for its body, and neither
  it nor anything after it is ever given.
-/

namespace Camerasp.Http

namespace RxResponse

/-- A complete head that announces a body of `n` bytes. -/
structure Plain (q : RxResponse) (n : Nat) : Prop where
  valid : q.valid
  notChunked : q.isChunked = false
  length : q.contentLength = n
  announced : q.headers.find "content-length" ≠ []

/-- A complete head that announces chunks. -/
structure Chunked (q : RxResponse) : Prop where
  valid : q.valid
  chunked : q.isChunked

/-- A complete head that announces nothing. -/
structure Bare (q : RxResponse) : Prop where
  valid : q.valid
  notChunked : q.isChunked = false
  unannounced : q.headers.find "content-length" = []

theorem Bare.length {q : RxResponse} (hq : q.Bare) : q.contentLength = 0 := by
  simp [contentLength, MessageHeaders.contentLength, hq.unannounced]

end RxResponse

/-- From `c` the chunk is complete with `s`, and the trailers so far are not too many. -/
structure RxChunk.Takes (c : RxChunk) (s : List Char) (c' : RxChunk) : Prop where
  wants : c.Wants s c'
  within : c.trailers.tooLong = false

/-! ## What `receive` does with a response -/

namespace ResponseReceiver

variable {x : ResponseReceiver} {q : RxResponse} {b b' s t : List Char}

theorem receive_of_valid (hv : x.response.valid) : x.receive b = x.receiveRest false b := by
  unfold receive
  rw [if_pos hv]

/-- **A buffer that begins with the rest of the head.** -/
theorem receive_head (hv : x.response.valid = false) (hw : x.response.Wants s q)
    (hu : x.response.Uncut s) :
    x.receive (s ++ t) = receiveRest { x with response := q } true t := by
  unfold receive
  simp only [hv, hw.parse hu t, Bool.false_eq_true, if_false, if_true]

/-- **A buffer that ends within the head.** -/
theorem receive_head_part (hv : x.response.valid = false) (hw : x.response.Wants (b ++ b') q)
    (hb' : b' ≠ []) (hu : x.response.Uncut b) :
    ∃ q₁, x.receive b = (.incomplete, { x with response := q₁ }, []) ∧ q₁.Wants b' q ∧
      q₁.valid = false := by
  obtain ⟨q₁, hparse, hwants, hvalid, hfail⟩ := hw.parse_part hb' hu
  refine ⟨q₁, ?_, hwants, hvalid.trans hv⟩
  unfold receive
  simp [hv, hparse, hfail]

theorem allowedLength_plain {n : Nat} (hq : x.response.Plain n) (b : List Char) :
    x.allowedLength b = n := by
  unfold allowedLength
  rw [if_neg (by simp [hq.announced]), hq.length]

/-- **The last of the body**, and what comes after it. -/
theorem receiveRest_body {n : Nat} {w : List Char} (hq : x.response.Plain n)
    (hn : x.body.length + w.length = n) (p : Bool) (t : List Char) :
    x.receiveRest p (w ++ t) = (.valid, { x with body := x.body ++ w }, t) := by
  have hneg : ¬ (n : Int) < 0 := by omega
  have hrequired : (n : Int).toNat - x.body.length = w.length := by omega
  have hlen : ((x.body ++ w).length : Int) = n := by rw [List.length_append, hn]
  unfold receiveRest receiveBody
  simp only [hq.notChunked, hq.length, allowedLength_plain hq, hneg, hrequired, Bool.false_eq_true,
    if_false, List.take_left, List.drop_left, hlen, if_true]

/-- **A buffer that ends within the body.** -/
theorem receiveRest_body_part {n : Nat} (hq : x.response.Plain n)
    (hn : x.body.length + b.length < n) (p : Bool) :
    x.receiveRest p b = (.incomplete, { x with body := x.body ++ b }, []) := by
  have hneg : ¬ (n : Int) < 0 := by omega
  have hrequired : b.length ≤ (n : Int).toNat - x.body.length := by omega
  have hlen : ¬ ((x.body ++ b).length : Int) = n := by
    rw [List.length_append]
    omega
  unfold receiveRest receiveBody
  simp only [hq.notChunked, hq.length, allowedLength_plain hq, hneg, Bool.false_eq_true, if_false,
    List.take_of_length_le hrequired, List.drop_of_length_le hrequired, hlen]

/-- The chunk that goes on in the next buffer. -/
def current (x : ResponseReceiver) : RxChunk := if x.chunk.valid then .init else x.chunk

theorem current_valid (x : ResponseReceiver) : x.current.valid = false := by
  unfold current
  cases hv : x.chunk.valid
  · exact hv
  · rfl

theorem current_of_valid (hv : x.chunk.valid) : x.current = .init := by
  unfold current
  rw [if_pos hv]

theorem current_of_not_valid (hv : x.chunk.valid = false) : x.current = x.chunk := by
  unfold current
  rw [if_neg (by simp [hv])]

/-- The head of a chunked response is given first. -/
theorem receiveRest_chunked (hq : x.response.Chunked) (hc : x.chunk.valid = false) :
    x.receiveRest true b = (.valid, x, b) := by
  unfold receiveRest receiveChunk
  simp [hq.chunked, hc]

theorem receiveRest_current (hq : x.response.Chunked) :
    x.receiveRest false b =
      let (ok, chunk, rest) := x.current.parseIn .client b
      let x := { x with chunk := chunk }
      if !ok && rest ≠ [] then (.invalid, init, rest)
      else if x.chunk.valid then (.chunk, x, rest)
      else (.incomplete, x, rest) := by
  unfold receiveRest receiveChunk current
  rw [if_pos hq.chunked]
  split <;> rfl

/-- **A buffer that begins with the rest of a chunk.** -/
theorem receiveRest_chunk {k : RxChunk} (hq : x.response.Chunked) (hw : x.current.Takes s k)
    (hu : x.current.Uncut s) :
    x.receiveRest false (s ++ t) = (.chunk, { x with chunk := k }, t) := by
  rw [receiveRest_current hq, hw.wants.parseIn Limits.wide_client hu t]
  simp [hw.wants.valid]

/-- **A buffer that ends within a chunk.** -/
theorem receiveRest_chunk_part {k : RxChunk} (hq : x.response.Chunked)
    (hw : x.current.Takes (b ++ b') k) (hb' : b' ≠ []) (hu : x.current.Uncut b) :
    ∃ k₁, x.receiveRest false b = (.incomplete, { x with chunk := k₁ }, []) ∧
      RxChunk.Takes k₁ b' k ∧ k₁.valid = false := by
  obtain ⟨k₁, hparse, hwants, hwithin, hvalid⟩ :=
    hw.wants.parseIn_part Limits.wide_client hw.within hb' hu
  rw [current_valid] at hvalid
  refine ⟨k₁, ?_, ⟨hwants, hwithin⟩, hvalid⟩
  rw [receiveRest_current hq, hparse]
  simp [hvalid]

/-- The buffer does not begin with a line end in the middle of a field. -/
def Uncut (x : ResponseReceiver) (b : List Char) : Prop :=
  if x.response.valid then x.current.Uncut b else x.response.Uncut b

theorem uncut_of_not_valid (hv : x.response.valid = false) (hu : x.Uncut b) :
    x.response.Uncut b := by
  unfold Uncut at hu
  simpa [hv] using hu

theorem uncut_of_valid (hv : x.response.valid) (hu : x.Uncut b) : x.current.Uncut b := by
  unfold Uncut at hu
  simpa [hv] using hu

end ResponseReceiver

/-! ## What a stream holds -/

/-- From the receiver the text consists of responses that announce their bodies, and `ds` is what
the client is to be given of them. -/
inductive Expects : ResponseReceiver → List Char → List Delivery → Prop
  | done : Expects .init [] []
  /-- in the head of a response with a body -/
  | plain {r s q w t ds} (hv : r.valid = false) (hw : r.Wants s q) (hq : q.Plain w.length)
      (ht : Expects .init t ds) : Expects ⟨r, .init, []⟩ (s ++ (w ++ t)) (.response q w :: ds)
  /-- in its body -/
  | body {q n v w t ds} (hq : q.Plain n) (hn : v.length + w.length = n) (hw : w ≠ [])
      (ht : Expects .init t ds) : Expects ⟨q, .init, v⟩ (w ++ t) (.response q (v ++ w) :: ds)
  /-- in the head of a chunked response -/
  | chunked {r s q t ds} (hv : r.valid = false) (hw : r.Wants s q) (hq : q.Chunked)
      (ht : Expects ⟨q, .init, []⟩ t ds) : Expects ⟨r, .init, []⟩ (s ++ t) (.response q [] :: ds)
  /-- in a chunk with data -/
  | chunk {q k k' s t ds} (hq : q.Chunked) (hw : (ResponseReceiver.current ⟨q, k, []⟩).Takes s k')
      (hl : k'.header.isLast = false) (ht : Expects ⟨q, k', []⟩ t ds) :
      Expects ⟨q, k, []⟩ (s ++ t) (.chunk k' :: ds)
  /-- in the last chunk -/
  | last {q k k' s t ds} (hq : q.Chunked) (hw : (ResponseReceiver.current ⟨q, k, []⟩).Takes s k')
      (hl : k'.header.isLast) (ht : Expects .init t ds) :
      Expects ⟨q, k, []⟩ (s ++ t) (.chunk k' :: ds)

namespace Expects

variable {x x' : ResponseReceiver} {b b' s t : List Char} {ds : List Delivery}

/-- What a round makes of a stream: it gives `given`, and goes on with what is left, which is
shorter and begins no line end in the middle of a field. -/
inductive Round (x : ResponseReceiver) (b b' : List Char) (ds : List Delivery) : Prop
  | intro {state y rest x' given ds'} (hreceive : x.receive b = (state, y, rest))
      (haccepted : state ≠ .invalid) (hshorter : rest.length < b.length)
      (hhandle : ∀ log, Client.handle ⟨y, log⟩ state = ⟨x', log ++ given⟩)
      (hds : ds = given ++ ds') (hleft : Expects x' (rest ++ b') ds')
      (huncut : rest ≠ [] → x'.Uncut rest)

theorem uncut_init (b : List Char) : ResponseReceiver.init.Uncut b :=
  MessageHeaders.uncut_of_init rfl b

/-- The whole buffer is taken, and nothing is given. -/
theorem Round.waits {y : ResponseReceiver} (hb : b ≠ [])
    (hreceive : x.receive b = (.incomplete, y, [])) (hleft : Expects y b' ds) : Round x b b' ds :=
  .intro hreceive (by simp) (List.length_pos_of_ne_nil hb)
    (fun log => by simp [Client.handle]) (List.nil_append ds).symm hleft fun h => absurd rfl h

/-- A response is given with its body. -/
theorem handle_plain {q : RxResponse} {n : Nat} (hq : q.Plain n) (k : RxChunk) (w : List Char)
    (log : List Delivery) :
    Client.handle ⟨⟨q, k, w⟩, log⟩ .valid = ⟨.init, log ++ [.response q w]⟩ := by
  simp [Client.handle, Client.deliver, Client.clear, hq.notChunked]

/-- The buffer goes on after the body, or ends within it. -/
theorem receive_body {q : RxResponse} {n : Nat} {v w u : List Char} (hq : q.Plain n)
    (hn : v.length + w.length = n) (hcut : u ++ b' = w ++ t) (p : Bool) :
    (∃ z, t = z ++ b' ∧ u = w ++ z ∧
      ResponseReceiver.receiveRest ⟨q, .init, v⟩ p u = (.valid, ⟨q, .init, v ++ w⟩, z)) ∨
    (∃ w', w' ≠ [] ∧ w = u ++ w' ∧ b' = w' ++ t ∧
      ResponseReceiver.receiveRest ⟨q, .init, v⟩ p u = (.incomplete, ⟨q, .init, v ++ u⟩, [])) := by
  rcases Lib.cut_cases hcut with ⟨z, rfl, rfl⟩ | ⟨w', hw', rfl, rfl⟩
  · exact .inl ⟨z, rfl, rfl, ResponseReceiver.receiveRest_body (x := ⟨q, .init, v⟩) hq hn p z⟩
  · refine .inr ⟨w', hw', rfl, rfl, ?_⟩
    have hpos := List.length_pos_of_ne_nil hw'
    rw [List.length_append] at hn
    exact ResponseReceiver.receiveRest_body_part (x := ⟨q, .init, v⟩) hq (by dsimp only; omega) p

/-- Between chunks no field has been begun. -/
theorem uncut_chunks {q : RxResponse} {k : RxChunk} (hq : q.Chunked)
    (hk : ResponseReceiver.current ⟨q, k, []⟩ = .init) (u : List Char) :
    ResponseReceiver.Uncut ⟨q, k, []⟩ u := by
  unfold ResponseReceiver.Uncut
  rw [if_pos hq.valid, hk]
  exact MessageHeaders.uncut_of_init rfl u

/-- The buffer goes on after the chunk, or ends within it. -/
theorem round_chunk {q : RxResponse} {k k' : RxChunk} (hq : q.Chunked)
    (hw : (ResponseReceiver.current ⟨q, k, []⟩).Takes s k') (hb : b ≠ []) (hs : b ++ b' = s ++ t)
    (hu : ResponseReceiver.Uncut ⟨q, k, []⟩ b) :
    (∃ u, u.length < b.length ∧ t = u ++ b' ∧
      ResponseReceiver.receive ⟨q, k, []⟩ b = (.chunk, ⟨q, k', []⟩, u)) ∨
    (∃ s' k₁, k₁.valid = false ∧ RxChunk.Takes k₁ s' k' ∧ b' = s' ++ t ∧
      ResponseReceiver.receive ⟨q, k, []⟩ b = (.incomplete, ⟨q, k₁, []⟩, [])) := by
  have hu := ResponseReceiver.uncut_of_valid hq.valid hu
  rw [ResponseReceiver.receive_of_valid hq.valid]
  rcases Lib.cut_cases hs with ⟨u, rfl, rfl⟩ | ⟨s', hs', rfl, rfl⟩
  · have hne := List.length_pos_of_ne_nil hw.wants.ne_nil
    refine .inl ⟨u, by simp; omega, rfl, ?_⟩
    exact ResponseReceiver.receiveRest_chunk (x := ⟨q, k, []⟩) hq hw
      (MessageHeaders.Uncut.left hu hw.wants.ne_nil)
  · obtain ⟨k₁, hreceive, hwants, hv⟩ :=
      ResponseReceiver.receiveRest_chunk_part (x := ⟨q, k, []⟩) hq hw hs' hu
    exact .inr ⟨s', k₁, hv, hwants, rfl, hreceive⟩

/-- **A round within a stream.** -/
theorem round (hx : Expects x (b ++ b') ds) (hb : b ≠ []) (hu : x.Uncut b) :
    Round x b b' ds := by
  generalize hs : b ++ b' = text at hx
  cases hx with
  | done => exact absurd (List.append_eq_nil_iff.mp hs).1 hb
  | @plain r s q w t ds hv hw hq ht =>
    have hu := ResponseReceiver.uncut_of_not_valid hv hu
    rcases Lib.cut_cases hs with ⟨u, rfl, hrest⟩ | ⟨s', hs', rfl, rfl⟩
    · have hne := List.length_pos_of_ne_nil hw.ne_nil
      have hhead : ResponseReceiver.receive ⟨r, .init, []⟩ (s ++ u) = _ :=
        ResponseReceiver.receive_head hv hw (hu.left hw.ne_nil)
      rcases receive_body (v := []) hq (Nat.zero_add _) hrest.symm true with
        ⟨z, rfl, rfl, hbody⟩ | ⟨w', hw', rfl, rfl, hbody⟩
      · rw [hbody] at hhead
        exact .intro hhead (by simp) (by simp; omega) (handle_plain hq _ _)
          (List.singleton_append).symm ht fun _ => uncut_init z
      · rw [hbody] at hhead
        exact .waits hb hhead (.body (v := u) hq (by simp) hw' ht)
    · obtain ⟨q₁, hreceive, hwants, hv₁⟩ :=
        ResponseReceiver.receive_head_part (x := ⟨r, .init, []⟩) hv hw hs' hu
      exact .waits hb hreceive (.plain hv₁ hwants hq ht)
  | @body q n v w t ds hq hn hw ht =>
    have hreceive : ResponseReceiver.receive ⟨q, .init, v⟩ b = _ :=
      ResponseReceiver.receive_of_valid hq.valid
    have hne := List.length_pos_of_ne_nil hw
    rcases receive_body hq hn hs false with ⟨z, rfl, rfl, hbody⟩ | ⟨w', hw', rfl, rfl, hbody⟩
    · rw [hbody] at hreceive
      exact .intro hreceive (by simp) (by simp; omega) (handle_plain hq _ _)
        (List.singleton_append).symm ht fun _ => uncut_init z
    · rw [hbody] at hreceive
      refine .waits hb hreceive ?_
      rw [← List.append_assoc]
      exact .body hq (by simpa [Nat.add_assoc] using hn) hw' ht
  | @chunked r s q t ds hv hw hq ht =>
    have hu := ResponseReceiver.uncut_of_not_valid hv hu
    rcases Lib.cut_cases hs with ⟨u, rfl, rfl⟩ | ⟨s', hs', rfl, rfl⟩
    · have hne := List.length_pos_of_ne_nil hw.ne_nil
      have hhead : ResponseReceiver.receive ⟨r, .init, []⟩ (s ++ u) = _ :=
        ResponseReceiver.receive_head hv hw (hu.left hw.ne_nil)
      rw [ResponseReceiver.receiveRest_chunked hq rfl] at hhead
      exact .intro hhead (by simp) (by simp; omega)
        (fun log => by simp [Client.handle, Client.deliver, hq.chunked])
        (List.singleton_append).symm ht fun _ => uncut_chunks hq rfl u
    · obtain ⟨q₁, hreceive, hwants, hv₁⟩ :=
        ResponseReceiver.receive_head_part (x := ⟨r, .init, []⟩) hv hw hs' hu
      exact .waits hb hreceive (.chunked hv₁ hwants hq ht)
  | @chunk q k k' s t ds hq hw hl ht =>
    rcases round_chunk hq hw hb hs hu with
      ⟨u, hlen, rfl, hreceive⟩ | ⟨s', k₁, hk₁, hwants, rfl, hreceive⟩
    · exact .intro hreceive (by simp) hlen
        (fun log => by simp [Client.handle, Client.deliver, hl]) (List.singleton_append).symm ht
        fun _ => uncut_chunks hq (ResponseReceiver.current_of_valid hw.wants.valid) u
    · refine .waits hb hreceive (.chunk hq ?_ hl ht)
      rw [ResponseReceiver.current_of_not_valid hk₁]
      exact hwants
  | @last q k k' s t ds hq hw hl ht =>
    rcases round_chunk hq hw hb hs hu with
      ⟨u, hlen, rfl, hreceive⟩ | ⟨s', k₁, hk₁, hwants, rfl, hreceive⟩
    · exact .intro hreceive (by simp) hlen
        (fun log => by simp [Client.handle, Client.deliver, Client.clear, hl])
        (List.singleton_append).symm ht fun _ => uncut_init u
    · refine .waits hb hreceive (.last hq ?_ hl ht)
      rw [ResponseReceiver.current_of_not_valid hk₁]
      exact hwants

/-- **A packet within a stream.** -/
theorem receiveLoop {n : Nat} (hx : Expects x (b ++ b') ds) (hu : x.Uncut b) (hn : b.length ≤ n)
    (log : List Delivery) : ∃ given ds' x', ds = given ++ ds' ∧
      Client.receiveLoop n ⟨x, log⟩ b = some ⟨x', log ++ given⟩ ∧ Expects x' b' ds' := by
  induction n generalizing x b ds log with
  | zero =>
    have hb : b = [] := List.length_eq_zero_iff.mp (Nat.le_zero.mp hn)
    subst hb
    exact ⟨[], ds, x, rfl, by simp [Client.receiveLoop], hx⟩
  | succ n ih =>
    cases b with
    | nil => exact ⟨[], ds, x, rfl, by simp [Client.receiveLoop], hx⟩
    | cons c b =>
      obtain ⟨hreceive, haccepted, hshorter, hhandle, rfl, hleft, huncut⟩ :=
        hx.round (List.cons_ne_nil c b) hu
      rename_i state y rest x₁ given ds₁
      simp only [Client.receiveLoop, hreceive, haccepted, if_false, hhandle]
      simp only [List.length_cons] at hshorter hn
      cases rest with
      | nil => exact ⟨given, ds₁, x₁, rfl, by cases n <;> rfl, hleft⟩
      | cons d rest =>
        obtain ⟨given', ds', x', rfl, hloop, hx'⟩ := ih hleft (huncut (List.cons_ne_nil d rest))
          (by omega) (log ++ given)
        exact ⟨given ++ given', ds', x', (List.append_assoc _ _ _).symm,
          by rw [hloop, List.append_assoc], hx'⟩

/-- Nothing is left of a stream: all has been given. -/
theorem of_nil (hx : Expects x [] ds) : x = .init ∧ ds = [] := by
  generalize hs : ([] : List Char) = text at hx
  cases hx with
  | done => exact ⟨rfl, rfl⟩
  | plain _ hw => exact absurd (List.append_eq_nil_iff.mp hs.symm).1 hw.ne_nil
  | body _ _ hw => exact absurd (List.append_eq_nil_iff.mp hs.symm).1 hw
  | chunked _ hw => exact absurd (List.append_eq_nil_iff.mp hs.symm).1 hw.ne_nil
  | chunk _ hw => exact absurd (List.append_eq_nil_iff.mp hs.symm).1 hw.wants.ne_nil
  | last _ hw => exact absurd (List.append_eq_nil_iff.mp hs.symm).1 hw.wants.ne_nil

end Expects

/-! ## Runs of the client -/

namespace Client

variable {c c' : Client} {b s t : List Char} {packets : List (List Char)} {ds : List Delivery}

/-- No packet begins with a line end in the middle of a field. -/
def Undivided (c : Client) (packets : List (List Char)) : Prop :=
  ∀ pre b post c', packets = pre ++ b :: post → c.run pre = some c' → c'.rx.Uncut b

theorem run_cons (c : Client) (b : List Char) (packets : List (List Char)) :
    c.run (b :: packets) = (c.receiveHandler b).bind fun c' => c'.run packets := rfl

theorem Undivided.head (hu : c.Undivided (b :: packets)) : c.rx.Uncut b :=
  hu [] b packets c rfl rfl

theorem Undivided.tail (hu : c.Undivided (b :: packets)) (hb : c.receiveHandler b = some c') :
    c'.Undivided packets := by
  rintro pre b' post c'' rfl hrun
  refine hu (b :: pre) b' post c'' rfl ?_
  rw [run_cons, hb]
  exact hrun

/-- **Packets within a stream.** -/
theorem run_part (hx : Expects c.rx (packets.flatten ++ s) ds) (hu : c.Undivided packets) :
    ∃ given ds' x', ds = given ++ ds' ∧ c.run packets = some ⟨x', c.delivered ++ given⟩ ∧
      Expects x' s ds' := by
  induction packets generalizing c ds with
  | nil => exact ⟨[], ds, c.rx, rfl, by simp [run], hx⟩
  | cons b packets ih =>
    rw [List.flatten_cons, List.append_assoc] at hx
    obtain ⟨given, ds₁, x₁, rfl, hloop, hx₁⟩ := hx.receiveLoop hu.head le_rfl c.delivered
    have hb : c.receiveHandler b = some ⟨x₁, c.delivered ++ given⟩ := hloop
    obtain ⟨given', ds', x', rfl, hrun, hx'⟩ := ih hx₁ (hu.tail hb)
    refine ⟨given ++ given', ds', x', (List.append_assoc _ _ _).symm, ?_, hx'⟩
    rw [run_cons, hb]
    simpa using hrun

/-- **A stream in packets**: all of it is given, and the client is ready for the next. -/
theorem run_expects (hc : c.rx = .init) (hx : Expects .init packets.flatten ds)
    (hu : c.Undivided packets) : c.run packets = some ⟨.init, c.delivered ++ ds⟩ := by
  rw [← List.append_nil packets.flatten, ← hc] at hx
  obtain ⟨given, ds', x', rfl, hrun, hx'⟩ := run_part hx hu
  obtain ⟨rfl, rfl⟩ := hx'.of_nil
  rw [hrun, List.append_nil]

/-! ## A response that announces no body -/

/-- The client takes what comes for the body of `q`. -/
def Swallows (q : RxResponse) (c : Client) : Prop :=
  ∃ w, w ≠ [] ∧ c = ⟨⟨q, .init, w⟩, []⟩

variable {q r : RxResponse}

/-- What is taken for a body makes it no shorter, and the body is never complete. -/
theorem receiveRest_bare {w : List Char} (hq : q.Bare) (p : Bool) (b : List Char)
    (h : w ≠ [] ∨ b ≠ []) : ∃ w' rest, w' ≠ [] ∧
      ResponseReceiver.receiveRest ⟨q, .init, w⟩ p b = (.incomplete, ⟨q, .init, w'⟩, rest) := by
  set x : ResponseReceiver := ⟨q, .init, w⟩ with hx
  set required := (x.allowedLength b).toNat - w.length
  have hbody : w ++ b.take required ≠ [] := by
    by_cases hw : w = []
    · subst hw
      have hb : b ≠ [] := h.resolve_left (by simp)
      have hallowed : x.allowedLength b = Limits.client.bodySize := by
        unfold ResponseReceiver.allowedLength
        rw [if_pos (by simp [hx, hb, hq.length, hq.unannounced])]
      have hrequired : required = Limits.client.bodySize := by simp [required, hallowed]
      simp [hrequired, hb, Limits.client, longMax]
    · simp [hw]
  refine ⟨_, b.drop required, hbody, ?_⟩
  have hlen : ¬ ((w ++ b.take required).length : Int) = 0 := by
    have := List.length_pos_of_ne_nil hbody
    omega
  have hneg : ¬ (0 : Int) < 0 := by omega
  unfold ResponseReceiver.receiveRest ResponseReceiver.receiveBody
  simp only [hx, hq.notChunked, hq.length, Bool.false_eq_true, if_false, hneg]
  rw [if_neg hlen]

theorem Swallows.receiveLoop {n : Nat} (hq : q.Bare) (hc : Swallows q c)
    (hloop : receiveLoop n c b = some c') : Swallows q c' := by
  induction n generalizing c b with
  | zero =>
    cases b with
    | nil =>
      cases hloop
      exact hc
    | cons a b => cases hloop
  | succ n ih =>
    cases b with
    | nil =>
      cases hloop
      exact hc
    | cons a b =>
      obtain ⟨w, hw, rfl⟩ := hc
      obtain ⟨w', rest, hw', hrest⟩ := receiveRest_bare hq false (a :: b) (.inl hw)
      simp only [Client.receiveLoop, hrest, handle,
        ResponseReceiver.receive_of_valid (x := ⟨q, .init, w⟩) hq.valid] at hloop
      exact ih ⟨w', hw', rfl⟩ hloop

theorem Swallows.run (hq : q.Bare) (hc : Swallows q c) (hrun : c.run packets = some c') :
    Swallows q c' := by
  induction packets generalizing c with
  | nil =>
    cases hrun
    exact hc
  | cons b packets ih =>
    rw [run_cons, Option.bind_eq_some_iff] at hrun
    obtain ⟨c₁, hb, hrun⟩ := hrun
    exact ih (hc.receiveLoop hq hb) hrun

/-- In the head of the response `q`. -/
inductive AwaitsHead (q : RxResponse) : Client → List Char → Prop
  | intro (r : RxResponse) (s : List Char) (hv : r.valid = false) (hw : r.Wants s q) :
      AwaitsHead q ⟨⟨r, .init, []⟩, []⟩ s

theorem AwaitsHead.ne_nil (hc : AwaitsHead q c s) : s ≠ [] := by
  obtain ⟨_, _, _, hw⟩ := hc
  exact hw.ne_nil

/-- A packet that ends with the head. -/
theorem AwaitsHead.complete (hq : q.Bare) (hc : AwaitsHead q c s) (hu : c.rx.Uncut s) :
    c.receiveHandler s = some ⟨.init, [.response q []]⟩ := by
  obtain ⟨r, _, hv, hw⟩ := hc
  have hhead := ResponseReceiver.receive_head (t := []) (x := ⟨r, .init, []⟩) hv hw
    (ResponseReceiver.uncut_of_not_valid hv hu)
  have hrest : ResponseReceiver.receiveRest ⟨q, .init, []⟩ true [] =
      (.valid, ⟨q, .init, []⟩, []) := by
    unfold ResponseReceiver.receiveRest ResponseReceiver.receiveBody
    simp [hq.notChunked, hq.length]
  rw [List.append_nil, hrest] at hhead
  cases s with
  | nil => exact absurd rfl hw.ne_nil
  | cons a s =>
    simp [receiveHandler, Client.receiveLoop, hhead, handle, deliver, Client.clear, hq.notChunked]

/-- A packet that goes on after the head. -/
theorem AwaitsHead.beyond {u : List Char} (hq : q.Bare) (hc : AwaitsHead q c s)
    (hu : c.rx.Uncut (s ++ u)) (hne : u ≠ []) (hloop : c.receiveHandler (s ++ u) = some c') :
    Swallows q c' := by
  obtain ⟨r, _, hv, hw⟩ := hc
  have hhead := ResponseReceiver.receive_head (t := u) (x := ⟨r, .init, []⟩) hv hw
    ((ResponseReceiver.uncut_of_not_valid hv hu).left hw.ne_nil)
  obtain ⟨w', rest, hw', hrest⟩ := receiveRest_bare (w := []) hq true u (.inr hne)
  rw [hrest] at hhead
  cases s with
  | nil => exact absurd rfl hw.ne_nil
  | cons a s =>
    rw [List.cons_append] at hhead hloop
    simp only [receiveHandler, List.length_cons, Client.receiveLoop, hhead, handle] at hloop
    exact Swallows.receiveLoop hq ⟨w', hw', rfl⟩ hloop

/-- A packet that ends within the head. -/
theorem AwaitsHead.part (hc : AwaitsHead q c (b ++ s)) (hu : c.rx.Uncut b) (hne : s ≠ []) :
    ∃ c', c.receiveHandler b = some c' ∧ AwaitsHead q c' s := by
  generalize htext : b ++ s = text at hc
  obtain ⟨r, _, hv, hw⟩ := hc
  subst htext
  cases b with
  | nil => exact ⟨_, rfl, .intro r s hv hw⟩
  | cons a b =>
    obtain ⟨q₁, hreceive, hwants, hv₁⟩ := ResponseReceiver.receive_head_part (x := ⟨r, .init, []⟩)
      hv hw hne (ResponseReceiver.uncut_of_not_valid hv hu)
    refine ⟨⟨⟨q₁, .init, []⟩, []⟩, ?_, .intro q₁ s hv₁ hwants⟩
    simp [receiveHandler, Client.receiveLoop, hreceive, handle]

/-- Empty packets change nothing. -/
theorem run_empty (h : packets.flatten = []) : c.run packets = some c := by
  induction packets with
  | nil => rfl
  | cons b packets ih =>
    rw [List.flatten_cons, List.append_eq_nil_iff] at h
    obtain ⟨rfl, h⟩ := h
    rw [run_cons]
    exact ih h

/-- The packets of the head, and no more. -/
theorem AwaitsHead.run_complete (hq : q.Bare) (hc : AwaitsHead q c packets.flatten)
    (hu : c.Undivided packets) : c.run packets = some ⟨.init, [.response q []]⟩ := by
  induction packets generalizing c with
  | nil => exact absurd rfl hc.ne_nil
  | cons b packets ih =>
    rw [List.flatten_cons] at hc
    by_cases hrest : packets.flatten = []
    · rw [hrest, List.append_nil] at hc
      rw [run_cons, hc.complete hq hu.head]
      exact run_empty hrest
    · obtain ⟨c₁, hb, hc₁⟩ := hc.part hu.head hrest
      rw [run_cons, hb]
      exact ih hc₁ (hu.tail hb)

/-- Packets that do not end with the head give nothing. -/
theorem AwaitsHead.run_nothing (hq : q.Bare) (hc : AwaitsHead q c s)
    (htext : packets.flatten <+: s ++ t) (hcut : ∀ k, (packets.take k).flatten ≠ s)
    (hu : c.Undivided packets) (hrun : c.run packets = some c') : c'.delivered = [] := by
  induction packets generalizing c s with
  | nil =>
    cases hrun
    obtain ⟨_, _, _, _⟩ := hc
    rfl
  | cons b packets ih =>
    rw [run_cons, Option.bind_eq_some_iff] at hrun
    obtain ⟨c₁, hb, hrun⟩ := hrun
    obtain ⟨z, hz⟩ := htext
    rw [List.flatten_cons, List.append_assoc] at hz
    rcases Lib.cut_cases hz with ⟨u, rfl, -⟩ | ⟨s', hs', rfl, hs⟩
    · by_cases hne : u = []
      · exact absurd (by simp [hne]) (hcut 1)
      · obtain ⟨w, -, rfl⟩ := (hc.beyond hq hu.head hne hb).run hq hrun
        rfl
    · obtain ⟨c₂, hb₂, hc₂⟩ := hc.part hu.head hs'
      rw [hb, Option.some_inj] at hb₂
      subst hb₂
      refine ih hc₂ ⟨z, hs⟩ (fun k hk => hcut (k + 1) ?_) (hu.tail hb) hrun
      rw [List.take_succ_cons, List.flatten_cons, hk]

theorem Undivided.take (hu : c.Undivided packets) (k : Nat) : c.Undivided (packets.take k) := by
  intro pre b post c' heq hrun
  refine hu pre b (post ++ packets.drop k) c' ?_ hrun
  calc packets = packets.take k ++ packets.drop k := (List.take_append_drop k packets).symm
    _ = pre ++ b :: (post ++ packets.drop k) := by rw [heq]; simp

/-- **A response that announces no body is given if and only if a packet ends with it**; and where
none does, nothing is ever given. -/
theorem given_bare_iff (hw : RxResponse.init.Wants s q) (hq : q.Bare)
    (htext : packets.flatten = s ++ t) (hu : init.Undivided packets) :
    ((∃ k c', init.run (packets.take k) = some c' ∧ .response q [] ∈ c'.delivered) ↔
        ∃ k, (packets.take k).flatten = s) ∧
      ((¬ ∃ k, (packets.take k).flatten = s) →
        ∀ k c', init.run (packets.take k) = some c' → c'.delivered = []) := by
  have hc : AwaitsHead q init s := .intro .init s rfl hw
  have hnothing : (¬ ∃ k, (packets.take k).flatten = s) →
      ∀ k c', init.run (packets.take k) = some c' → c'.delivered = [] := by
    intro hcut k c' hrun
    refine hc.run_nothing (t := t) hq ?_ (fun j hj => hcut ⟨min j k, ?_⟩) (hu.take k) hrun
    · rw [← htext]
      exact List.IsPrefix.flatten (List.take_prefix k packets)
    · rw [List.take_take] at hj
      exact hj
  refine ⟨⟨?_, ?_⟩, hnothing⟩
  · rintro ⟨k, c', hrun, hgiven⟩
    by_contra hcut
    rw [hnothing hcut k c' hrun] at hgiven
    exact absurd hgiven List.not_mem_nil
  · rintro ⟨k, rfl⟩
    exact ⟨k, _, hc.run_complete hq (hu.take k), by simp⟩

/-- The first packet after a response begins no field's line end. -/
theorem undivided_singleton (hc : c.rx = .init) (b : List Char) : c.Undivided [b] := by
  intro pre b' post c' heq hrun
  cases pre with
  | nil =>
    cases hrun
    rw [hc]
    exact Expects.uncut_init b'
  | cons d pre => simp at heq

/-- The response `204` in a packet of its own, and with the first byte of the next one. -/
theorem given_bare_noContent :
    (∃ q k c', init.run (["HTTP/1.1 204 No Content\r\n\r\n".toList].take k) = some c' ∧
        .response q [] ∈ c'.delivered) ∧
      ¬ ∃ k c', init.run (["HTTP/1.1 204 No Content\r\n\r\nH".toList].take k) = some c' ∧
        c'.delivered ≠ [] := by
  have hline : ResponseLine.scanner.run .init "HTTP/1.1 204 No Content\r\n".toList = some _ :=
    ResponseLine.run_lineText (r := .ofCode 204)
      (.of_reasonPhrase rfl rfl (Nat.le_of_ble_eq_true rfl) rfl)
  have hw : RxResponse.init.Wants ("HTTP/1.1 204 No Content\r\n".toList ++ ['\r', '\n']) _ :=
    .line ⟨rfl, rfl⟩ hline (by decide) rfl rfl (.headers rfl rfl rfl rfl (.cr rfl))
  constructor
  · exact ⟨_, (given_bare_iff (t := []) hw ⟨rfl, rfl, rfl⟩ rfl
      (undivided_singleton rfl _)).1.mpr ⟨1, rfl⟩⟩
  · rintro ⟨k, c', hrun, hne⟩
    refine hne ((given_bare_iff (t := ['H']) hw ⟨rfl, rfl, rfl⟩ rfl
      (undivided_singleton rfl _)).2 ?_ k c' hrun)
    rintro ⟨k, hk⟩
    cases k with
    | zero => exact absurd hk (by decide)
    | succ k =>
      rw [List.take_succ_cons, List.take_nil] at hk
      exact absurd hk (by decide)

end Client

end Camerasp.Http
