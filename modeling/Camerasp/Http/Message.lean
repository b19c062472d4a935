import Camerasp.Http.Exchange
import Mathlib.Algebra.Ring.Nat

/-!
# Well-formed requests

HTTP/1.1 requests as a client writes them on a connection that it keeps: methods and field names
are tokens, of any length, and the fields announce the body. `Request.render` is the text.

The receiver has narrower ideas: a method is of capital letters, a field name of letters and `-`,
and there are limits (`Field.Taken`, `Limited`, `ChunkLine.Taken`, `Request.Within`). Within these
the head is complete with `Request.head` (`Request.wants`), and the request is then
`Request.received`. `Decision.lean` has what becomes of the others.
-/

namespace Camerasp.Http

open Camerasp.Lib (Scanner)

/-! ## Fields -/

/-- A field. Blanks behind the value count as part of it, as they do for the receiver. -/
structure Field where
  name : List Char
  blanks : List Char
  value : List Char
  isName : ∀ c ∈ name, isTokenChar c
  name_ne : name ≠ []
  isBlank : ∀ c ∈ blanks, isSpaceOrTab c
  isValue : ∀ c ∈ value, isEndOfLine c = false
  trimmed : value.head?.any isSpaceOrTab = false

namespace Field

def text (f : Field) : List Char := fieldText f.name f.blanks f.value

/-- The name as it is compared. -/
def key (f : Field) : List Char := lower f.name

/-- What the field counts for `max_header_length`. -/
def length (f : Field) : Nat := f.name.length + f.value.length

/-- The receiver takes the line. -/
structure Taken (f : Field) : Prop where
  isName : ∀ c ∈ f.name, (c.isAlpha || c = '-') = true
  blanks_le : f.blanks.length ≤ maxWhitespace
  line_le : f.text.length ≤ maxLineLength

theorem text_ne_nil (f : Field) : f.text ≠ [] := by
  intro h
  have hlen := length_fieldText f.name f.blanks f.value
  rw [← text, h] at hlen
  simp at hlen

/-- **The receiver takes the line of a field within its limits.** -/
theorem run_text {f : Field} (hf : f.Taken) :
    ∃ l, FieldLine.scanner.run .init f.text = some l ∧ l.state = .valid ∧ l.name = lower f.name ∧
      l.value = f.value :=
  FieldLine.run_fieldText hf.isName f.isBlank hf.blanks_le f.isValue f.trimmed hf.line_le

end Field

/-- The text of fields, and the blank line. -/
def fieldsText (fs : List Field) : List Char := (fs.map Field.text).flatten ++ crlf

/-- Lines that are taken, within `max_header_length` and `max_header_number`. -/
structure Limited (fs : List Field) : Prop where
  taken : ∀ f ∈ fs, f.Taken
  length_le : (fs.map Field.length).sum ≤ maxHeaderLength
  number_le : fs.length ≤ maxHeaderNumber

/-- The value of all fields of one name, joined by commas. -/
def combined (fs : List Field) (name : String) : List Char :=
  [','].intercalate ((fs.filter fun f => f.key = name.toList).map Field.value)

/-! ## What the receiver makes of fields -/

namespace MessageHeaders

/-- The headers with a field. -/
def withField (h : MessageHeaders) (f : Field) : MessageHeaders :=
  { h with
    length := h.length + f.length
    fields := add f.key f.value h.fields
    field := .init }

theorem length_add_le (name value : List Char) (fields : List (List Char × List Char)) :
    (add name value fields).length ≤ fields.length + 1 := by
  unfold add
  split <;> simp

/-- **The receiver takes fields within the limits, and the blank line after them.** -/
theorem wants_fieldsText (fs : List Field) {h : MessageHeaders} (hf : h.field = .init)
    (htaken : ∀ f ∈ fs, f.Taken) (hlen : h.length + (fs.map Field.length).sum ≤ maxHeaderLength)
    (hnum : h.fields.length + fs.length ≤ maxHeaderNumber) :
    h.Wants (fieldsText fs) { fs.foldl withField h with valid := true } := by
  induction fs generalizing h with
  | nil => exact .cr hf
  | cons f fs ih =>
    rw [List.forall_mem_cons] at htaken
    obtain ⟨l, hrun, hl, hname, hvalue⟩ := Field.run_text htaken.1
    have htake : h.take l = h.withField f := by
      simp [take, withField, hname, hvalue, Field.length, Field.key, lower]
    have hadd := length_add_le f.key f.value h.fields
    simp only [List.map_cons, List.sum_cons, List.length_cons] at hlen hnum
    have hrest := ih (h := h.withField f) rfl htaken.2 (by simp only [withField]; omega)
      (by simp only [withField]; omega)
    have hlimit : (h.take l).tooLong = false := by
      rw [htake]
      simp [tooLong, withField]
      omega
    have htext : fieldsText (f :: fs) = f.text ++ fieldsText fs := by simp [fieldsText]
    rw [htext]
    refine .field (hf ▸ hrun) f.text_ne_nil hl (fun _ => hf) hlimit ?_
    rw [htake]
    exact hrest

/-! ### Looking a field up -/

def lookup (fields : List (List Char × List Char)) (name : List Char) : Option (List Char) :=
  (fields.find? fun p => p.1 = name).map Prod.snd

theorem lookup_cons (p : List Char × List Char) (fields : List (List Char × List Char))
    (name : List Char) :
    lookup (p :: fields) name = if p.1 = name then some p.2 else lookup fields name := by
  by_cases h : p.1 = name <;> simp [lookup, h]

/-- The value that `add` extends. -/
theorem lookup_map (n name t : List Char) (fields : List (List Char × List Char)) :
    lookup (fields.map fun p => if p.1 = n then (p.1, p.2 ++ t) else p) name =
      if n = name then (lookup fields name).map (· ++ t) else lookup fields name := by
  induction fields with
  | nil => simp [lookup]
  | cons p fields ih =>
    rw [List.map_cons, lookup_cons, lookup_cons, ih]
    by_cases hn : n = name
    · subst hn
      by_cases hp : p.1 = n <;> simp [hp]
    · by_cases hp : p.1 = n
      · have hne : p.1 ≠ name := fun h => hn (hp.symm.trans h)
        simp [hp, hn]
      · simp [hp, hn]

theorem lookup_eq_none {name : List Char} {fields : List (List Char × List Char)} :
    lookup fields name = none ↔ name ∉ fields.map Prod.fst := by
  induction fields with
  | nil => simp [lookup]
  | cons p fields ih =>
    rw [lookup_cons, List.map_cons, List.mem_cons, not_or, ← ih]
    by_cases hp : p.1 = name
    · simp [hp]
    · simp [hp, Ne.symm hp]

theorem lookup_append_singleton (n name value : List Char)
    (fields : List (List Char × List Char)) :
    lookup (fields ++ [(n, value)]) name =
      (lookup fields name).or (if n = name then some value else none) := by
  induction fields with
  | nil => by_cases hn : n = name <;> simp [lookup, hn]
  | cons p fields ih =>
    rw [List.cons_append, lookup_cons, lookup_cons, ih]
    split <;> simp

theorem lookup_add {name : List Char} (hs : separator name = [',']) (n value : List Char)
    (fields : List (List Char × List Char)) :
    lookup (add n value fields) name =
      if n = name then some (((lookup fields name).map (· ++ [','])).getD [] ++ value)
      else lookup fields name := by
  unfold add
  by_cases hn : n = name
  · subst hn
    by_cases hmem : n ∈ fields.map Prod.fst
    · obtain ⟨w, hw⟩ := Option.ne_none_iff_exists'.mp fun h => lookup_eq_none.mp h hmem
      rw [if_pos hmem, lookup_map, hs]
      simp [hw]
    · rw [if_neg hmem, lookup_append_singleton, lookup_eq_none.mpr hmem]
      simp
  · split
    · rw [lookup_map, if_neg hn]
    · rw [lookup_append_singleton]
      simp [hn]

theorem intercalate_concat {sep x : List Char} {xs : List (List Char)} (hxs : xs ≠ []) :
    sep.intercalate (xs ++ [x]) = sep.intercalate xs ++ sep ++ x := by
  induction xs with
  | nil => exact absurd rfl hxs
  | cons y ys ih =>
    by_cases hys : ys = []
    · subst hys
      simp [List.intercalate_cons_cons]
    · rw [List.cons_append, List.intercalate_cons_of_ne_nil (by simp),
        List.intercalate_cons_of_ne_nil hys, ih hys]
      simp

/-- **The receiver combines the fields of one name**, cookies apart. -/
theorem lookup_withField {name : String} (hs : separator name.toList = [',']) (fs : List Field) :
    lookup (fs.foldl withField init).fields name.toList =
      if (fs.filter fun f => f.key = name.toList) = [] then none else some (combined fs name) := by
  induction fs using List.reverseRecOn with
  | nil => rfl
  | append_singleton fs f ih =>
    rw [List.foldl_append, List.foldl_cons, List.foldl_nil]
    simp only [withField]
    rw [lookup_add hs, ih]
    unfold combined
    rw [List.filter_append]
    by_cases hf : f.key = name.toList
    · by_cases hnone : (fs.filter fun f => f.key = name.toList) = []
      · simp [hf, hnone]
      · simp [hf, hnone, intercalate_concat]
    · simp [hf]

theorem find_withField {name : String} (hs : separator name.toList = [',']) (fs : List Field) :
    ({ fs.foldl withField init with valid := true } : MessageHeaders).find name =
      combined fs name := by
  have h := lookup_withField hs fs
  unfold lookup at h
  unfold find
  dsimp only
  rw [h]
  split
  · rename_i hnone
    simp [combined, hnone]
  · rfl

end MessageHeaders

/-! ## Chunks -/

/-- A chunk extension, without its `;`. -/
structure Extension where
  blanks : List Char
  value : List Char
  isBlank : ∀ c ∈ blanks, isSpaceOrTab c
  isValue : ∀ c ∈ value, isEndOfLine c = false
  trimmed : value.head?.any isSpaceOrTab = false

/-- The header line of a chunk. -/
def chunkLineText (digits : List Char) : Option Extension → List Char
  | none => digits ++ crlf
  | some e => digits ++ ([';'] ++ (e.blanks ++ (e.value ++ crlf)))

structure ChunkLine where
  digits : List Char
  extension : Option Extension
  isDigit : ∀ c ∈ digits, isXDigit c
  digits_ne : digits ≠ []

namespace ChunkLine

def text (l : ChunkLine) : List Char := chunkLineText l.digits l.extension

def size (l : ChunkLine) : Nat := numeral 16 l.digits

/-- The receiver takes the line. -/
structure Taken (l : ChunkLine) : Prop where
  digits_le : l.digits.length ≤ ChunkHeader.maxSizeDigits
  size_le : l.size ≤ maxChunkSize
  blanks_le : ∀ e ∈ l.extension, e.blanks.length ≤ maxWhitespace
  line_le : l.text.length ≤ maxLineLength

theorem text_ne_nil (l : ChunkLine) : l.text ≠ [] := by
  unfold text chunkLineText
  split <;> simp [crlf]

/-- **The receiver takes the header line of a chunk within its limits.** -/
theorem run_text {l : ChunkLine} (hl : l.Taken) :
    ∃ h, ChunkHeader.scanner.run .init l.text = some h ∧ h.state = .valid ∧ h.size = l.size := by
  obtain ⟨digits, extension, hdigit, hne⟩ := l
  obtain ⟨hd, hn, hblanks, hlen⟩ := hl
  cases extension with
  | none => exact ChunkHeader.run_digits_crlf hne hdigit hd hn hlen
  | some e =>
    exact ChunkHeader.run_digits_extension hne hdigit hd hn e.isBlank (hblanks e rfl) e.isValue
      e.trimmed hlen

end ChunkLine

/-- A chunk with data. -/
structure Chunk where
  line : ChunkLine
  data : List Char
  data_ne : data ≠ []
  size_eq : line.size = data.length

def Chunk.text (k : Chunk) : List Char := k.line.text ++ (k.data ++ crlf)

/-- The last chunk. -/
structure LastChunk where
  line : ChunkLine
  trailers : List Field
  size_eq : line.size = 0

def LastChunk.text (k : LastChunk) : List Char := k.line.text ++ fieldsText k.trailers

theorem Chunk.wants {k : Chunk} (hk : k.line.Taken) :
    ∃ c, RxChunk.init.Wants k.text c ∧ c.header.isLast = false := by
  obtain ⟨h, hrun, hstate, hsize⟩ := ChunkLine.run_text hk
  have hpos := List.length_pos_of_ne_nil k.data_ne
  have hlast : ¬ ({ h with valid := true } : ChunkHeader).isLast := by
    simp only [ChunkHeader.isLast, decide_eq_true_eq]
    rw [hsize, k.size_eq]
    omega
  refine ⟨_, .header rfl hrun k.line.text_ne_nil hstate rfl (.data rfl hlast ?_), ?_⟩
  · simp [RxChunk.init, hsize, k.size_eq]
  · simpa using hlast

theorem LastChunk.line_isLast {k : LastChunk} {h : ChunkHeader} (hsize : h.size = k.line.size) :
    ({ h with valid := true } : ChunkHeader).isLast := by
  simp only [ChunkHeader.isLast, decide_eq_true_eq]
  rw [hsize, k.size_eq]

theorem LastChunk.wants {k : LastChunk} {trailers : MessageHeaders} (hk : k.line.Taken)
    (ht : MessageHeaders.init.Wants (fieldsText k.trailers) trailers) :
    ∃ c, RxChunk.init.Wants k.text c ∧ c.header.isLast := by
  obtain ⟨h, hrun, hstate, hsize⟩ := ChunkLine.run_text hk
  have hlast := line_isLast hsize
  exact ⟨_, .header rfl hrun k.line.text_ne_nil hstate rfl (.trailers rfl hlast ht), hlast⟩

/-! ## Requests -/

/-- What follows the head. -/
inductive Body
  | plain (data : List Char)
  | chunked (chunks : List Chunk) (last : LastChunk)

namespace Body

def text : Body → List Char
  | .plain data => data
  | .chunked chunks last => (chunks.map Chunk.text).flatten ++ last.text

/-- The fields announce the body: without a Transfer-Encoding, or with one that is the identity, a
Content-Length, which a request without a body may leave out; or a Transfer-Encoding without a
Content-Length. -/
def Announced (fields : List Field) : Body → Prop
  | .plain data =>
    (combined fields "transfer-encoding" = [] ∨
        contains (lower (combined fields "transfer-encoding")) "identity".toList) ∧
      (combined fields "content-length" = [] ∧ data = [] ∨
        ∃ digits blanks, combined fields "content-length" = digits ++ blanks ∧ digits ≠ [] ∧
          (∀ c ∈ digits, c.isDigit) ∧ (∀ c ∈ blanks, isSpaceOrTab c) ∧
          numeral 10 digits = data.length)
  | .chunked _ _ =>
    combined fields "transfer-encoding" ≠ [] ∧
      contains (lower (combined fields "transfer-encoding")) "identity".toList = false ∧
      combined fields "content-length" = []

end Body

/-- A request. TRACE has no body. -/
structure Request where
  method : List Char
  uri : List Char
  fields : List Field
  body : Body
  isMethod : ∀ c ∈ method, isTokenChar c
  method_ne : method ≠ []
  isUri : ∀ c ∈ uri, ¬ isEndOfLine c ∧ ¬ isSpaceOrTab c
  uri_ne : uri ≠ []
  kept : contains (lower (combined fields "connection")) "close".toList = false
  announced : body.Announced fields
  trace : method = "TRACE".toList → body = .plain []

namespace Request

def requestLine (r : Request) : List Char :=
  r.method ++ ([' '] ++ (r.uri ++ RequestLine.versionText))

/-- The text of the request line and the fields. -/
def head (r : Request) : List Char := r.requestLine ++ fieldsText r.fields

def render (r : Request) : List Char := r.head ++ r.body.text

def isChunked (r : Request) : Prop :=
  match r.body with
  | .plain _ => False
  | .chunked _ _ => True

/-- Expect: 100-continue. -/
def expectsContinue (r : Request) : Prop :=
  contains (lower (combined r.fields "expect")) "100-continue".toList

instance (r : Request) : Decidable r.expectsContinue := inferInstanceAs (Decidable (_ = true))

/-- Without a Host field, or with an empty one. -/
def hostless (r : Request) : Prop := combined r.fields "host" = []

instance (r : Request) : Decidable r.hostless := inferInstanceAs (Decidable (_ = []))

/-- The receiver takes the head. -/
structure Within (r : Request) : Prop where
  isMethod : ∀ c ∈ r.method, c.isUpper
  method_le : r.method.length ≤ maxMethodLength
  uri_le : r.uri.length ≤ maxUriLength
  limited : Limited r.fields

/-- The head as the receiver has it. -/
def received (r : Request) : RxRequest :=
  ⟨{ RequestLine.completed r.method r.uri with valid := true },
    { r.fields.foldl MessageHeaders.withField .init with valid := true }, true⟩

theorem requestLine_ne_nil (r : Request) : r.requestLine ≠ [] := by simp [requestLine]

theorem wants {r : Request} (hr : r.Within) : RxRequest.init.Wants r.head r.received := by
  have hfields := MessageHeaders.wants_fieldsText r.fields (h := .init) rfl hr.limited.taken
    (by simpa [MessageHeaders.init] using hr.limited.length_le)
    (by simpa [MessageHeaders.init] using hr.limited.number_le)
  have hrun := RequestLine.run_requestLine hr.isMethod r.method_ne hr.method_le r.isUri r.uri_ne
    hr.uri_le
  exact .line ⟨rfl, rfl⟩ hrun r.requestLine_ne_nil rfl rfl (.headers rfl rfl rfl hfields)

/-- What the receiver finds in the head is what the fields say. -/
theorem find_received (r : Request) {name : String}
    (hs : MessageHeaders.separator name.toList = [',']) :
    r.received.headers.find name = combined r.fields name :=
  MessageHeaders.find_withField hs r.fields

theorem isHttp10OrEarlier_received (r : Request) :
    r.received.line.isHttp10OrEarlier = false := rfl

theorem keepAlive_received (r : Request) : r.received.keepAlive = true := by
  have hclose : r.received.headers.closeConnection = false := by
    unfold MessageHeaders.closeConnection
    rw [r.find_received (by decide)]
    exact r.kept
  simp [RxRequest.keepAlive, hclose, r.isHttp10OrEarlier_received]

theorem missingHostHeader_received (r : Request) :
    r.received.missingHostHeader = true ↔ r.hostless := by
  unfold RxRequest.missingHostHeader hostless
  rw [r.find_received (by decide)]
  simp [received, RequestLine.completed]

theorem expectContinue_received (r : Request) :
    r.received.expectContinue = true ↔ r.expectsContinue := by
  unfold RxRequest.expectContinue MessageHeaders.expectContinue expectsContinue
  rw [r.find_received (by decide), r.isHttp10OrEarlier_received]
  simp

theorem isTrace_received {r : Request} (h : r.received.isTrace) : r.body = .plain [] := by
  exact r.trace (of_decide_eq_true h)

theorem isChunked_received (r : Request) : r.received.isChunked =
    (decide (combined r.fields "transfer-encoding" ≠ []) &&
      !contains (lower (combined r.fields "transfer-encoding")) "identity".toList) := by
  unfold RxRequest.isChunked MessageHeaders.isChunked
  rw [r.find_received (by decide)]

theorem contentLength_received (r : Request) : r.received.contentLength =
    if combined r.fields "content-length" = [] then 0
    else fromDecString (combined r.fields "content-length") := by
  unfold RxRequest.contentLength MessageHeaders.contentLength
  rw [r.find_received (by decide)]

theorem blanks_eq_nil {blanks : List Char} (hblanks : ∀ c ∈ blanks, isSpaceOrTab c)
    (hdigits : ∀ c ∈ blanks, c.isDigit) : blanks = [] := by
  refine List.eq_nil_iff_forall_not_mem.mpr fun c hc => ?_
  have hdigit := hdigits c hc
  rcases isSpaceOrTab_iff.mp (hblanks c hc) with rfl | rfl
  · exact absurd hdigit (by decide)
  · exact absurd hdigit (by decide)

/-- **The length of the body**, or what stands for a Content-Length that does not fit a `long` or
has blanks behind it. -/
theorem contentLength_plain {r : Request} {data : List Char} (hb : r.body = .plain data) :
    r.received.contentLength = data.length ∨ r.received.contentLength = -1 := by
  obtain ⟨-, hlen⟩ : Body.Announced r.fields (.plain data) := hb ▸ r.announced
  rw [contentLength_received]
  rcases hlen with ⟨hnone, rfl⟩ | ⟨digits, blanks, heq, hne, hdigits, hblanks, hn⟩
  · rw [if_pos hnone]
    exact .inl rfl
  · rw [heq, if_neg (by simp [hne])]
    rcases fromString_cases Char.isDigit 10 (digits ++ blanks) with hbad | ⟨hall, hgood⟩
    · exact .inr hbad
    · refine .inl (hgood.trans ?_)
      have hnil := blanks_eq_nil hblanks fun c hc => List.all_eq_true.mp hall c (by simp [hc])
      rw [hnil, List.append_nil, hn]

/-- A Content-Length of digits. -/
theorem contentLength_digits {r : Request} {data : List Char} (hb : r.body = .plain data)
    (hdigits : ∀ c ∈ combined r.fields "content-length", c.isDigit)
    (hsmall : data.length ≤ maxBodySize) : r.received.contentLength = data.length := by
  obtain ⟨-, hlen⟩ : Body.Announced r.fields (.plain data) := hb ▸ r.announced
  rw [contentLength_received]
  rcases hlen with ⟨hnone, rfl⟩ | ⟨digits, blanks, heq, hne, hd, hblanks, hn⟩
  · rw [if_pos hnone]
    rfl
  · rw [heq] at hdigits ⊢
    have hnil := blanks_eq_nil hblanks fun c hc => hdigits c (by simp [hc])
    rw [hnil, List.append_nil, if_neg hne, fromDecString_eq hne hd, hn]
    rw [hn]
    exact hsmall.trans (by decide)

/-- **The head of a request that is not chunked**, to the receiver: its body is taken, or the head
refused. -/
theorem plain_or_refused {r : Request} {data : List Char} (hb : r.body = .plain data)
    (hhost : ¬ r.hostless) : r.received.Plain data.length ∨ r.received.Refused := by
  obtain ⟨hte, -⟩ : Body.Announced r.fields (.plain data) := hb ▸ r.announced
  have hmissing : r.received.missingHostHeader = false := by
    rw [← missingHostHeader_received] at hhost
    simpa using hhost
  have hchunked : r.received.isChunked = false := by
    rw [isChunked_received]
    rcases hte with hte | hte
    · rw [hte]
      rfl
    · rw [hte]
      exact Bool.and_false _
  rcases contentLength_plain hb with hlen | hlen
  · by_cases hsmall : data.length ≤ maxBodySize
    · refine .inl ⟨rfl, hmissing, hchunked, hlen, hsmall, fun ht => ?_⟩
      have hnil := isTrace_received ht
      rw [hb] at hnil
      cases hnil
      rfl
    · exact .inr ⟨hmissing, hchunked, .inr (.inl (by rw [hlen]; omega))⟩
  · exact .inr ⟨hmissing, hchunked, .inl (by rw [hlen]; decide)⟩

/-- **The head of a chunked request**, to the receiver. -/
theorem chunked_received {r : Request} {chunks : List Chunk} {last : LastChunk}
    (hb : r.body = .chunked chunks last) (hhost : ¬ r.hostless) : r.received.Chunked := by
  obtain ⟨hte, hid, hcl⟩ : Body.Announced r.fields (.chunked chunks last) := hb ▸ r.announced
  refine ⟨rfl, ?_, ?_, ?_, ?_⟩
  · rw [← missingHostHeader_received] at hhost
    simpa using hhost
  · rw [isChunked_received, hid]
    simp [hte]
  · rw [contentLength_received, if_pos hcl]
  · by_contra ht
    have hnil := isTrace_received (r := r) (by simpa using ht)
    rw [hb] at hnil
    cases hnil

end Request

end Camerasp.Http
