import Camerasp.Http.Stream

/-!
# What is sent can be read (`message`, `send_chunk` and `last_chunk`, and the client)

The texts that `http_connection` sends, with the conditions under which `response_receiver` reads
them back: a response with its body (`Answer`), and a response in chunks (`ChunkedAnswer`). Fields
and chunks are within the limits of the server's own receiver, which the client's exceed.

Results:
* `run_sent`: **a client is given what was sent**, status, reason, version, fields, body and chunks,
  for any sequence of responses in any packets, as long as no packet begins with a line end in the
  middle of a field.
-/

namespace Camerasp.Http

/-! ## Chunks as they are sent (`chunk.cpp`, `send_chunk`, `last_chunk`) -/

/-- `to_hex_string`. -/
def toHexString (n : Nat) : List Char := Nat.toDigits 16 n

theorem digitChar_hex {d : Nat} (hd : d < 16) :
    isXDigit d.digitChar ∧ digitValue d.digitChar = d := by
  have hall : ∀ d : Fin 16, isXDigit d.val.digitChar ∧ digitValue d.val.digitChar = d.val := by
    decide
  exact hall ⟨d, hd⟩

theorem isXDigit_of_mem_toHexString (n : Nat) : ∀ c ∈ toHexString n, isXDigit c := by
  induction n using Nat.strongRecOn with
  | ind n ih =>
    intro c hc
    unfold toHexString at hc
    by_cases hn : n < 16
    · rw [Nat.toDigits_of_lt_base hn, List.mem_singleton] at hc
      rw [hc]
      exact (digitChar_hex hn).1
    · rw [Nat.toDigits_of_base_le (by decide) (by omega), List.mem_append,
        List.mem_singleton] at hc
      rcases hc with hc | rfl
      · exact ih (n / 16) (by omega) c hc
      · exact (digitChar_hex (Nat.mod_lt n (by decide))).1

/-- **What is written in hexadecimal is read back.** -/
theorem numeral_toHexString (n : Nat) : numeral 16 (toHexString n) = n := by
  induction n using Nat.strongRecOn with
  | ind n ih =>
    unfold toHexString at ih ⊢
    by_cases hn : n < 16
    · rw [Nat.toDigits_of_lt_base hn]
      simpa [numeral] using (digitChar_hex hn).2
    · rw [Nat.toDigits_of_base_le (by decide) (by omega), ResponseLine.numeral_append,
        ih (n / 16) (by omega), (digitChar_hex (Nat.mod_lt n (by decide))).2]
      omega

/-- The extension, as `to_string` writes it. -/
def extensionText (extension : List Char) : List Char :=
  if extension = [] then [] else [';', ' '] ++ extension

/-- `chunk_header::to_string`. -/
def chunkHeaderText (size : Nat) (extension : List Char) : List Char :=
  toHexString size ++ (extensionText extension ++ crlf)

/-- What `send_chunk` sends. -/
def chunkText (data extension : List Char) : List Char :=
  chunkHeaderText data.length extension ++ (data ++ crlf)

/-- `last_chunk::to_string`. -/
def lastChunkText (extension trailers : List Char) : List Char :=
  ['0'] ++ (extensionText extension ++ (crlf ++ (trailers ++ crlf)))

/-- The header line of a chunk within the limits. -/
structure SentLine (size : Nat) where
  extension : List Char
  size_le : size ≤ maxChunkSize
  isExtension : ∀ c ∈ extension, isEndOfLine c = false
  trimmed : extension.head?.any isSpaceOrTab = false
  line_le : (chunkHeaderText size extension).length ≤ maxLineLength

namespace SentLine

variable {size : Nat}

theorem digits_le (l : SentLine size) :
    (toHexString size).length ≤ ChunkHeader.maxSizeDigits := by
  refine (Nat.length_toDigits_le_iff (by decide) (by decide)).mpr ?_
  exact l.size_le.trans_lt (by decide)

theorem numeral_le (l : SentLine size) : numeral 16 (toHexString size) ≤ maxChunkSize := by
  rw [numeral_toHexString]
  exact l.size_le

/-- The extension as the receiver takes it apart. -/
def toExtension (l : SentLine size) : Option Extension :=
  if l.extension = [] then none
  else some ⟨[' '], l.extension, isSpaceOrTab_space, l.isExtension, l.trimmed⟩

theorem chunkLineText_toExtension (l : SentLine size) :
    chunkLineText (toHexString size) l.toExtension = chunkHeaderText size l.extension := by
  unfold toExtension chunkHeaderText extensionText
  split
  · rfl
  · simp [chunkLineText]

/-- The line as the receiver takes it apart. -/
def toChunkLine (l : SentLine size) : ChunkLine where
  digits := toHexString size
  extension := l.toExtension
  isDigit := isXDigit_of_mem_toHexString size
  digits_ne := Nat.toDigits_ne_nil

theorem toChunkLine_text (l : SentLine size) :
    l.toChunkLine.text = chunkHeaderText size l.extension := l.chunkLineText_toExtension

theorem taken (l : SentLine size) : l.toChunkLine.Taken where
  digits_le := l.digits_le
  size_le := l.numeral_le
  blanks_le e he := by
    have hext : l.toExtension = some e := he
    unfold toExtension at hext
    split at hext
    · cases hext
    · cases hext
      exact length_space_le
  line_le := by
    rw [toChunkLine_text]
    exact l.line_le

theorem run (l : SentLine size) : ∃ h, ChunkHeader.scanner.run .init
    (chunkHeaderText size l.extension) = some h ∧ h.state = .valid ∧ h.size = size := by
  obtain ⟨h, hrun, hstate, hsize⟩ := ChunkLine.run_text l.taken
  rw [toChunkLine_text] at hrun
  exact ⟨h, hrun, hstate, hsize.trans (numeral_toHexString size)⟩

end SentLine

/-- A chunk with data. An empty one would be taken for the last. -/
structure SentChunk where
  data : List Char
  line : SentLine data.length
  data_ne : data ≠ []

/-- The last chunk. -/
structure SentLast where
  line : SentLine 0
  trailers : List Field
  limited : Limited trailers

def SentChunk.text (k : SentChunk) : List Char := chunkText k.data k.line.extension

def SentLast.text (k : SentLast) : List Char :=
  lastChunkText k.line.extension (k.trailers.map Field.text).flatten

/-! ## What the client is given -/

/-- The fields of a head, as the receiver combines them. -/
def combinedFields (fs : List Field) : List (List Char × List Char) :=
  (fs.foldl MessageHeaders.withField .init).fields

/-- What the handlers of a client see of a delivery. -/
inductive Seen
  | response (status : Nat) (reason : List Char) (major minor : Char)
      (fields : List (List Char × List Char)) (body : List Char)
  | chunk (data : List Char) (isLast : Bool) (trailers : List (List Char × List Char))
  | invalid
  deriving DecidableEq

def Delivery.seen : Delivery → Seen
  | .response q body =>
    .response q.line.status q.line.reason q.line.majorVersion q.line.minorVersion q.headers.fields
      body
  | .chunk k => .chunk k.data k.header.isLast k.trailers.fields
  | .invalid => .invalid

theorem SentChunk.wants (k : SentChunk) : ∃ c, RxChunk.init.Wants k.text c ∧
    c.header.isLast = false ∧ (Delivery.chunk c).seen = .chunk k.data false [] := by
  obtain ⟨h, hrun, hstate, hsize⟩ := k.line.run
  have hpos := List.length_pos_of_ne_nil k.data_ne
  have hlast : ({ h with valid := true } : ChunkHeader).isLast = false := by
    simp only [ChunkHeader.isLast, decide_eq_false_iff_not]
    omega
  refine ⟨_, .header rfl hrun (by simp [chunkHeaderText, crlf]) hstate rfl
    (.data rfl (by simp [hlast]) ?_), hlast, ?_⟩
  · simp [RxChunk.init, hsize]
  · simp [Delivery.seen, hlast, RxChunk.init, MessageHeaders.init]

theorem SentLast.wants (k : SentLast) : ∃ c, RxChunk.init.Wants k.text c ∧ c.header.isLast ∧
    (Delivery.chunk c).seen = .chunk [] true (combinedFields k.trailers) := by
  obtain ⟨h, hrun, hstate, hsize⟩ := k.line.run
  have hlast : ({ h with valid := true } : ChunkHeader).isLast := by
    simp [ChunkHeader.isLast, hsize]
  have htrailers := MessageHeaders.wants_fieldsText k.trailers (h := .init) rfl k.limited.taken
    (by simpa [MessageHeaders.init] using k.limited.length_le)
    (by simpa [MessageHeaders.init] using k.limited.number_le)
  have htext : k.text = chunkHeaderText 0 k.line.extension ++ fieldsText k.trailers := by
    simp [text, lastChunkText, chunkHeaderText, fieldsText, toHexString]
  rw [htext]
  refine ⟨_, .header rfl hrun (by simp [chunkHeaderText, crlf]) hstate rfl
    (.trailers rfl hlast htrailers), hlast, ?_⟩
  simp [Delivery.seen, hlast, RxChunk.init, combinedFields]

/-! ## Responses -/

/-- A head that a receiver takes: its header string is made of fields within the limits. -/
structure Head where
  response : TxResponse
  /-- the size given to `message` -/
  size : Nat
  fields : List Field
  readable : response.Readable
  headers_eq : response.headerString ++ response.addedHeader size = (fields.map Field.text).flatten
  limited : Limited fields

namespace Head

def text (h : Head) : List Char := h.response.message h.size

/-- The head as the client has it. -/
def received (h : Head) : RxResponse :=
  ⟨{ ResponseLine.completed h.response with valid := true },
    { h.fields.foldl MessageHeaders.withField .init with valid := true }, true⟩

theorem text_eq (h : Head) : h.text = h.response.lineText ++ fieldsText h.fields := by
  unfold text TxResponse.message fieldsText
  rw [← h.headers_eq]
  simp

theorem wants (h : Head) : RxResponse.init.Wants h.text h.received := by
  have hfields := MessageHeaders.wants_fieldsText h.fields (h := .init) rfl h.limited.taken
    (by simpa [MessageHeaders.init] using h.limited.length_le)
    (by simpa [MessageHeaders.init] using h.limited.number_le)
  rw [text_eq]
  exact .line ⟨rfl, rfl⟩ (ResponseLine.run_lineText h.readable)
    (by simp [TxResponse.lineText, TxResponse.versionText]) rfl rfl
    (.headers rfl rfl rfl rfl hfields)

/-- What the client finds in the head is what the fields say. -/
theorem find_received (h : Head) (name : String)
    (hs : MessageHeaders.separator name.toList = [',']) :
    h.received.headers.find name = combined h.fields name :=
  MessageHeaders.find_withField hs h.fields

/-- What the client sees of the head, with a body. -/
def seen (h : Head) (body : List Char) : Seen :=
  .response h.response.status h.response.reason h.response.majorVersion h.response.minorVersion
    (combinedFields h.fields) body

theorem seen_received (h : Head) (body : List Char) :
    (Delivery.response h.received body).seen = h.seen body := rfl

end Head

/-- A response with its body, whose length the fields announce. -/
structure Answer extends Head where
  body : List Char
  body_le : body.length ≤ longMax
  notChunked : combined fields "transfer-encoding" = []
  isLength : ∀ c ∈ combined fields "content-length", c.isDigit
  length_ne : combined fields "content-length" ≠ []
  length_eq : numeral 10 (combined fields "content-length") = body.length

theorem Answer.plain (a : Answer) : a.received.Plain a.body.length where
  valid := rfl
  notChunked := by
    have h := a.find_received "transfer-encoding" (by decide)
    simp [RxResponse.isChunked, MessageHeaders.isChunked, h, a.notChunked]
  length := by
    have h := a.find_received "content-length" (by decide)
    have hread := fromDecString_eq a.length_ne a.isLength (by rw [a.length_eq]; exact a.body_le)
    simp only [RxResponse.contentLength, MessageHeaders.contentLength, h, a.length_ne, if_false]
    rw [hread, a.length_eq]
  announced := by
    rw [a.find_received "content-length" (by decide)]
    exact a.length_ne

/-- A response in chunks. -/
structure ChunkedAnswer extends Head where
  chunks : List SentChunk
  last : SentLast
  chunked : combined fields "transfer-encoding" ≠ []
  notIdentity : contains (lower (combined fields "transfer-encoding")) "identity".toList = false

theorem ChunkedAnswer.isChunked (a : ChunkedAnswer) : a.received.Chunked where
  valid := rfl
  chunked := by
    have h := a.find_received "transfer-encoding" (by decide)
    have hid := a.notIdentity
    simp only [RxResponse.isChunked, MessageHeaders.isChunked, h, hid]
    simp [a.chunked]

/-- What `http_connection` sends. -/
inductive Sent
  | answer (a : Answer)
  | chunked (a : ChunkedAnswer)

namespace Sent

def text : Sent → List Char
  | .answer a => a.text ++ a.body
  | .chunked a => a.text ++ ((a.chunks.map SentChunk.text).flatten ++ a.last.text)

/-- What the client is to see of it. -/
def seen : Sent → List Seen
  | .answer a => [a.seen a.body]
  | .chunked a =>
    a.seen [] :: (a.chunks.map (fun k => .chunk k.data false []) ++
      [.chunk [] true (combinedFields a.last.trailers)])

end Sent

/-! ## What is sent is read -/

variable {t : List Char} {ds : List Delivery}

/-- Between chunks the next one begins. -/
theorem takes_current {q : RxResponse} {k c : RxChunk} {s : List Char}
    (hk : k.valid = true ∨ k = .init) (hw : RxChunk.init.Wants s c) :
    (ResponseReceiver.current ⟨q, k, []⟩).Takes s c := by
  have hcurrent : ResponseReceiver.current ⟨q, k, []⟩ = .init := by
    rcases hk with hk | rfl
    · exact ResponseReceiver.current_of_valid hk
    · rfl
  rw [hcurrent]
  exact ⟨hw, rfl⟩

/-- The chunks of a response. -/
theorem expects_chunks {q : RxResponse} (hq : q.Chunked) (ks : List SentChunk) (last : SentLast)
    (ht : Expects .init t ds) {k : RxChunk} (hk : k.valid = true ∨ k = .init) :
    ∃ ds', ds'.map Delivery.seen = ks.map (fun k => Seen.chunk k.data false []) ++
        [.chunk [] true (combinedFields last.trailers)] ∧
      Expects ⟨q, k, []⟩ ((ks.map SentChunk.text).flatten ++ last.text ++ t) (ds' ++ ds) := by
  induction ks generalizing k with
  | nil =>
    obtain ⟨c, hw, hl, hseen⟩ := last.wants
    exact ⟨[.chunk c], by simp [hseen], .last hq (takes_current hk hw) hl ht⟩
  | cons k' ks ih =>
    obtain ⟨c, hw, hl, hseen⟩ := k'.wants
    obtain ⟨ds', hds, hx⟩ := ih (k := c) (.inl hw.valid)
    refine ⟨.chunk c :: ds', by simp [hseen, hds], ?_⟩
    have htext : ((k' :: ks).map SentChunk.text).flatten ++ last.text ++ t =
        k'.text ++ ((ks.map SentChunk.text).flatten ++ last.text ++ t) := by simp
    rw [htext]
    exact .chunk hq (takes_current hk hw) hl hx

/-- One response before others. -/
theorem Sent.expects (x : Sent) (ht : Expects .init t ds) :
    ∃ ds', ds'.map Delivery.seen = x.seen ∧ Expects .init (x.text ++ t) (ds' ++ ds) := by
  cases x with
  | answer a =>
    refine ⟨[.response a.received a.body], by simp [seen, a.seen_received], ?_⟩
    rw [text, List.append_assoc]
    exact .plain rfl a.wants a.plain ht
  | chunked a =>
    obtain ⟨ds', hds, hx⟩ := expects_chunks a.isChunked a.chunks a.last ht (.inr rfl)
    refine ⟨.response a.received [] :: ds', by simp [seen, a.seen_received, hds], ?_⟩
    rw [text, List.append_assoc]
    exact .chunked rfl a.wants a.isChunked hx

theorem expects_sent (xs : List Sent) : ∃ ds, ds.map Delivery.seen = xs.flatMap Sent.seen ∧
    Expects .init (xs.flatMap Sent.text) ds := by
  induction xs with
  | nil => exact ⟨[], rfl, .done⟩
  | cons x xs ih =>
    obtain ⟨ds, hds, hx⟩ := ih
    obtain ⟨ds', hds', hx'⟩ := x.expects hx
    exact ⟨ds' ++ ds, by simp [hds, hds'], by simpa using hx'⟩

/-- **A client is given what was sent.** -/
theorem Client.run_sent (xs : List Sent) {packets : List (List Char)}
    (htext : packets.flatten = xs.flatMap Sent.text) (hu : init.Undivided packets) :
    ∃ ds, init.run packets = some ⟨.init, ds⟩ ∧
      ds.map Delivery.seen = xs.flatMap Sent.seen := by
  obtain ⟨ds, hds, hx⟩ := expects_sent xs
  rw [← htext] at hx
  exact ⟨ds, run_expects rfl hx hu, hds⟩

/-- A response with a body of one byte. -/
def Sample.ok : Answer where
  response := .ofCode 200
  size := 1
  fields := [{
    name := "Content-Length".toList
    blanks := [' ']
    value := ['1']
    isName := List.all_eq_true.mp rfl
    name_ne := contentLength_ne_nil
    isBlank := isSpaceOrTab_space
    isValue := (by decide : Inline ['1'])
    trimmed := by decide }]
  readable := .of_reasonPhrase rfl rfl (Nat.le_of_ble_eq_true rfl) rfl
  headers_eq := by decide
  limited := by
    refine ⟨fun f hf => ?_, by decide, by decide⟩
    rw [List.mem_singleton] at hf
    subst hf
    exact ⟨List.all_eq_true.mp rfl, length_space_le, by decide⟩
  body := ['x']
  body_le := by decide
  notChunked := by decide
  isLength := List.all_eq_true.mp rfl
  length_ne := by decide
  length_eq := by decide

theorem Client.run_sent_ok :
    ∃ ds, init.run ["HTTP/1.1 200 OK\r\nContent-Length: 1\r\n\r\nx".toList] =
        some ⟨.init, ds⟩ ∧
      ds.map Delivery.seen = [.response 200 "OK".toList '1' '1'
        [("content-length".toList, ['1'])] ['x']] :=
  Client.run_sent [.answer Sample.ok] (by decide) (undivided_singleton rfl _)

end Camerasp.Http
