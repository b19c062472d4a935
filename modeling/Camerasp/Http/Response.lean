import Camerasp.Http.Message

/-!
# Responses as they are sent (`tx_response` in `response.hpp`)

A response is its status line and a string of headers; `message` puts the text together, with a
Content-Length where the headers have none. `is_valid` is to keep a blank line out of the headers,
since what follows it would be taken for the body, or for another response
(`are_headers_split`, `headers.cpp`).

Results:
* `areHeadersSplit_iff`: the loop finds exactly the blank lines within the headers.
* `endsEarly_message_iff`: the text of a response has its first blank line at its end unless the
  headers are split or **begin** with a line end, which the loop does not see: it starts as if a
  `0` stood before the headers, not the end of the status line.
-/

namespace Camerasp.Http

/-! ## Numbers (`character.cpp`) -/

/-- `to_dec_string`. -/
def toDecString (n : Nat) : List Char := Nat.toDigits 10 n

theorem toDecString_ne_nil (n : Nat) : toDecString n ≠ [] := Nat.toDigits_ne_nil

theorem isDigit_of_mem_toDecString {n : Nat} {c : Char} (h : c ∈ toDecString n) : c.isDigit :=
  Nat.isDigit_of_mem_toDigits (by decide) (by decide) h

theorem length_toDecString_le {n k : Nat} (hk : 0 < k) (h : n < 10 ^ k) :
    (toDecString n).length ≤ k :=
  (Nat.length_toDigits_le_iff (by decide) hk).mpr h

/-- **What is written in decimal is read back.** -/
theorem numeral_toDecString (n : Nat) : numeral 10 (toDecString n) = n := by
  have hfold : ∀ (s : List Char) (m : Nat), (∀ c ∈ s, c.isDigit) →
      s.foldl (fun n c => n * 10 + digitValue c) m = Nat.ofDigitChars 10 s m := by
    intro s
    induction s with
    | nil => intro m _; rfl
    | cons c s ih =>
      intro m hs
      have hc : c.isDigit := hs c (by simp)
      rw [List.foldl_cons, ih _ fun d hd => hs d (by simp [hd]), Nat.ofDigitChars_cons]
      simp [digitValue, hc, Nat.mul_comm]
  have hread : numeral 10 (toDecString n) = Nat.ofDigitChars 10 (toDecString n) 0 :=
    hfold _ 0 fun c hc => isDigit_of_mem_toDecString hc
  rw [hread]
  exact Nat.ofDigitChars_ten_toDigits

/-! ## Status codes (`response_status.hpp`, `response_status.cpp`) -/

/-- `response_status::code` with its phrases. -/
def reasonPhrases : List (Nat × String) :=
  [(100, "Continue"), (101, "Switching Protocols"),
    (200, "OK"), (201, "Created"), (202, "Accepted"), (203, "Non-Authoritative Information"),
    (204, "No Content"), (205, "Reset Content"), (206, "Partial Content"),
    (300, "Multiple Choices"), (301, "Moved Permanently"), (302, "Found"), (303, "See Other"),
    (304, "Not Modified"), (305, "Use Proxy"), (307, "Temporary Redirect"),
    (308, "Permanent Redirect"),
    (400, "Bad Request"), (401, "Unauthorized"), (402, "Payment Required"), (403, "Forbidden"),
    (404, "Not Found"), (405, "Method Not Allowed"), (406, "Not Acceptable"),
    (407, "Proxy Authentication Required"), (408, "Request Time-out"), (409, "Conflict"),
    (410, "Gone"), (411, "Length Required"), (412, "Precondition Failed"),
    (413, "Payload Too Large"), (414, "Request-URI Too Long"), (415, "Unsupported Media Type"),
    (416, "Requested range not satisfiable"), (417, "Expectation Failed"),
    (426, "Upgrade Required"), (428, "Precondition Required"), (429, "Too Many Requests"),
    (431, "Request Header Fields Too Large"),
    (500, "Internal Server Error"), (501, "Not Implemented"), (502, "Bad Gateway"),
    (503, "Service Unavailable"), (504, "Gateway Time-out"), (505, "HTTP Version not supported"),
    (511, "Network Authentication Required")]

/-- `reason_phrase`. -/
def reasonPhrase (status : Nat) : List Char := ((reasonPhrases.lookup status).getD "").toList

/-- `content_permitted`. -/
def contentPermitted (status : Nat) : Bool := 200 ≤ status && status ≠ 204 && status ≠ 304

/-! ## Header lines (`header_field.cpp`) -/

/-- `to_header`. -/
def toHeader (name : String) (value : List Char) : List Char :=
  name.toList ++ ([':', ' '] ++ (value ++ crlf))

/-- `content_length`. -/
def contentLengthHeader (size : Nat) : List Char := toHeader "Content-Length" (toDecString size)

/-- `server_header`. -/
def serverHeader : List Char := toHeader "Server" "Via-httplib".toList

/-- The time of `gmtime`, up to the last year whose date fits in `dateBuffer`. -/
structure Tm where
  weekday : Fin 7
  day : Fin 32
  month : Fin 12
  year : Fin 10000
  hour : Fin 24
  minute : Fin 60
  second : Fin 61

/-- Two digits. -/
def padded (n : Nat) : List Char := [(n / 10).digitChar, (n % 10).digitChar]

def weekdays : List String := ["Sun", "Mon", "Tue", "Wed", "Thu", "Fri", "Sat"]

def months : List String :=
  ["Jan", "Feb", "Mar", "Apr", "May", "Jun", "Jul", "Aug", "Sep", "Oct", "Nov", "Dec"]

/-- `strftime` with `DATE_FORMAT`, in the "C" locale. -/
def dateText (t : Tm) : List Char :=
  (weekdays[t.weekday]).toList ++ (", ".toList ++ (padded t.day ++ ([' '] ++
    ((months[t.month]).toList ++ ([' '] ++ (toDecString t.year ++ ([' '] ++ (padded t.hour ++
      ([':'] ++ (padded t.minute ++ ([':'] ++ (padded t.second ++ " GMT".toList))))))))))))

/-- `date_header`. -/
def dateHeader (t : Tm) : List Char := toHeader "Date" (dateText t)

/-! ### What is on one line -/

/-- Without a line end. -/
def Inline (s : List Char) : Prop := ∀ c ∈ s, isEndOfLine c = false

instance (s : List Char) : Decidable (Inline s) :=
  decidable_of_iff (s.all (!isEndOfLine ·) = true) (by simp [Inline])

@[simp] theorem inline_append {s t : List Char} : Inline (s ++ t) ↔ Inline s ∧ Inline t := by
  simp [Inline, or_imp, forall_and]

theorem inline_of_isDigit {s : List Char} (h : ∀ c ∈ s, c.isDigit) : Inline s := by
  intro c hc
  have hd := h c hc
  by_contra he
  rw [Bool.not_eq_false, isEndOfLine_iff] at he
  rcases he with rfl | rfl <;> exact absurd hd (by decide)

theorem inline_toDecString (n : Nat) : Inline (toDecString n) :=
  inline_of_isDigit fun _ => isDigit_of_mem_toDecString

theorem isDigit_of_mem_padded {n : Nat} (hn : n < 100) : ∀ c ∈ padded n, c.isDigit := by
  have hall : ∀ n : Fin 100, (padded n).all Char.isDigit := by decide
  exact List.all_eq_true.mp (hall ⟨n, hn⟩)

theorem inline_padded {n : Nat} (hn : n < 100) : Inline (padded n) :=
  inline_of_isDigit (isDigit_of_mem_padded hn)

theorem weekday_text (d : Fin 7) : Inline (weekdays[d]).toList ∧
    (weekdays[d]).toList.head?.any isSpaceOrTab = false ∧ (weekdays[d]).toList.length = 3 := by
  revert d
  decide

theorem month_text (m : Fin 12) :
    Inline (months[m]).toList ∧ (months[m]).toList.length = 3 := by
  revert m
  decide

theorem inline_dateText (t : Tm) : Inline (dateText t) := by
  have h₁ := (weekday_text t.weekday).1
  have h₂ := (month_text t.month).1
  have h₃ := inline_padded (n := t.day) (by omega)
  have h₄ := inline_padded (n := t.hour) (by omega)
  have h₅ := inline_padded (n := t.minute) (by omega)
  have h₆ := inline_padded (n := t.second) (by omega)
  simp only [dateText, inline_append, h₁, h₂, h₃, h₄, h₅, h₆, inline_toDecString, true_and]
  decide

/-- A date fits in `dateBuffer`, whose 30 characters include the NUL. -/
theorem length_dateText_le (t : Tm) : (dateText t).length ≤ 29 := by
  have h₁ := (weekday_text t.weekday).2.2
  have h₂ := (month_text t.month).2
  have h₃ := length_toDecString_le (n := t.year) (k := 4) (by decide) (by omega)
  simp only [dateText, padded, List.length_append, List.length_cons, List.length_nil, h₁, h₂]
  simp
  omega

theorem trimmed_dateText (t : Tm) : (dateText t).head?.any isSpaceOrTab = false := by
  obtain ⟨-, htrim, hlen⟩ := weekday_text t.weekday
  unfold dateText
  rw [List.head?_append_of_ne_nil]
  · exact htrim
  · intro hnil
    rw [hnil] at hlen
    cases hlen

/-- What `to_header` puts after the colon. -/
theorem isSpaceOrTab_space : ∀ c ∈ [' '], isSpaceOrTab c := by simp [isSpaceOrTab]

theorem length_space_le : [' '].length ≤ maxWhitespace := by decide

theorem contentLength_ne_nil : "Content-Length".toList ≠ [] := by decide

/-! ## Responses -/

/-- `tx_response`: `response_line` without the state of its parser, and `header_string_`. -/
structure TxResponse where
  status : Nat
  reason : List Char
  majorVersion : Char
  minorVersion : Char
  headerString : List Char

namespace TxResponse

/-- The constructor for a standard response. -/
def ofCode (code : Nat) : TxResponse := ⟨code, reasonPhrase code, '1', '1', []⟩

def addHeader (r : TxResponse) (name : String) (value : List Char) : TxResponse :=
  { r with headerString := r.headerString ++ toHeader name value }

def addContentLengthHeader (r : TxResponse) (size : Nat) : TxResponse :=
  { r with headerString := r.headerString ++ contentLengthHeader size }

def addDateHeader (r : TxResponse) (t : Tm) : TxResponse :=
  { r with headerString := r.headerString ++ dateHeader t }

def addServerHeader (r : TxResponse) : TxResponse :=
  { r with headerString := r.headerString ++ serverHeader }

/-- `set_major_version` and `set_minor_version`. -/
def setVersion (r : TxResponse) (major minor : Char) : TxResponse :=
  { r with majorVersion := major, minorVersion := minor }

/-- `http_version`, and the blank after it. -/
def versionText (major minor : Char) : List Char := "HTTP/".toList ++ [major, '.', minor, ' ']

/-- `response_line::to_string`. -/
def lineText (r : TxResponse) : List Char :=
  versionText r.majorVersion r.minorVersion ++
    (toDecString r.status ++ ([' '] ++ (r.reason ++ crlf)))

/-- The header that `message` adds. -/
def addedHeader (r : TxResponse) (contentLength : Nat) : List Char :=
  if !contains r.headerString "Content-Length".toList &&
      !contains r.headerString "Transfer-Encoding".toList && contentPermitted r.status then
    contentLengthHeader contentLength
  else []

def message (r : TxResponse) (contentLength : Nat) : List Char :=
  r.lineText ++ (r.headerString ++ (r.addedHeader contentLength ++ crlf))

end TxResponse

/-! ## Split headers -/

/-- The loop of `are_headers_split`, with the two characters before. -/
def splitLoop : Char → Char → List Char → Bool
  | _, _, [] => false
  | pprev, prev, c :: s =>
    if c = '\n' && (prev = '\n' || prev = '\r' && pprev = '\n') then true else splitLoop prev c s

def areHeadersSplit (headers : List Char) : Bool := splitLoop '0' '0' headers

def TxResponse.isValid (r : TxResponse) : Bool := !areHeadersSplit r.headerString

/-- A blank line, after the end of another. -/
def BlankLine (s : List Char) : Prop := ['\n', '\n'] <:+: s ∨ ['\n', '\r', '\n'] <:+: s

instance (s : List Char) : Decidable (BlankLine s) :=
  inferInstanceAs (Decidable (_ ∨ _))

/-- The text before the end of a blank line. -/
def EndsLine (s : List Char) : Prop := ['\n'] <:+ s ∨ ['\n', '\r'] <:+ s

theorem endsLine_cons₃ (a b c : Char) (s : List Char) :
    EndsLine (a :: b :: c :: s) ↔ EndsLine (b :: c :: s) := by
  simp [EndsLine, List.suffix_cons_iff]

theorem endsLine_pair (a b : Char) : EndsLine [a, b] ↔ b = '\n' ∨ b = '\r' ∧ a = '\n' := by
  simp only [EndsLine, List.suffix_cons_iff, List.suffix_nil, List.cons.injEq, and_true,
    reduceCtorEq, or_false, and_false, false_or]
  constructor
  · rintro (h | ⟨ha, hb⟩)
    · exact .inl h.symm
    · exact .inr ⟨hb.symm, ha.symm⟩
  · rintro (h | ⟨hb, ha⟩)
    · exact .inl h.symm
    · exact .inr ⟨ha.symm, hb.symm⟩

/-- What the loop finds from any two characters on. -/
theorem splitLoop_iff {s : List Char} : ∀ {a b : Char}, splitLoop a b s = true ↔
    ∃ u v, s = u ++ '\n' :: v ∧ EndsLine (a :: b :: u) := by
  induction s with
  | nil => simp [splitLoop]
  | cons c s ih =>
    intro a b
    have hsplit : splitLoop a b (c :: s) = true ↔
        c = '\n' ∧ EndsLine [a, b] ∨ splitLoop b c s = true := by
      rw [endsLine_pair]
      simp [splitLoop]
    rw [hsplit, ih]
    constructor
    · rintro (⟨rfl, h⟩ | ⟨u, v, rfl, h⟩)
      · exact ⟨[], s, rfl, h⟩
      · exact ⟨c :: u, v, rfl, (endsLine_cons₃ a b c u).mpr h⟩
    · rintro ⟨u, v, hs, h⟩
      cases u with
      | nil =>
        obtain ⟨rfl, rfl⟩ := List.cons.inj hs
        exact .inl ⟨rfl, h⟩
      | cons d u =>
        obtain ⟨rfl, rfl⟩ := List.cons.inj hs
        exact .inr ⟨u, v, rfl, (endsLine_cons₃ a b c u).mp h⟩

theorem blankLine_iff {s : List Char} :
    BlankLine s ↔ ∃ u v, s = u ++ '\n' :: v ∧ EndsLine u := by
  constructor
  · rintro (⟨u, v, rfl⟩ | ⟨u, v, rfl⟩)
    · exact ⟨u ++ ['\n'], v, by simp, .inl ⟨u, rfl⟩⟩
    · exact ⟨u ++ ['\n', '\r'], v, by simp, .inr ⟨u, rfl⟩⟩
  · rintro ⟨_, v, rfl, ⟨u, rfl⟩ | ⟨u, rfl⟩⟩
    · exact .inl ⟨u, v, by simp⟩
    · exact .inr ⟨u, v, by simp⟩

/-- **The loop finds the blank lines within the headers, and nothing else.** -/
theorem areHeadersSplit_iff (s : List Char) : areHeadersSplit s = true ↔ BlankLine s := by
  have hstart : ∀ u, EndsLine ('0' :: '0' :: u) ↔ EndsLine u := by
    simp [EndsLine, List.suffix_cons_iff]
  unfold areHeadersSplit
  rw [splitLoop_iff, blankLine_iff]
  simp only [hstart]

/-! ### The first blank line of a response -/

/-- The loop over a line. -/
theorem splitLoop_line {v : List Char} (hv : v ≠ []) (hn : '\n' ∉ v) (s : List Char) :
    ∀ {a b : Char}, splitLoop a b (v ++ (crlf ++ s)) = splitLoop '\r' '\n' s := by
  induction v with
  | nil => exact absurd rfl hv
  | cons c v ih =>
    intro a b
    simp only [List.mem_cons, not_or] at hn
    have hc : c ≠ '\n' := Ne.symm hn.1
    cases v with
    | nil => simp [splitLoop, crlf, hc]
    | cons d v =>
      have hrest := ih (List.cons_ne_nil d v) hn.2 (a := b) (b := c)
      rw [List.cons_append, splitLoop]
      simp only [hc, decide_false, Bool.false_and, Bool.false_eq_true, if_false]
      exact hrest

/-- The loop over what no two characters make it find anything in. -/
theorem splitLoop_append {t : List Char} (ht : ∀ a b, splitLoop a b t = false) (s : List Char) :
    ∀ {a b : Char}, splitLoop a b (s ++ t) = splitLoop a b s := by
  induction s with
  | nil => intro a b; exact ht a b
  | cons c s ih =>
    intro a b
    simp only [List.cons_append, splitLoop, ih]

/-- After the end of a line, a line end at the head is a blank line. -/
theorem splitLoop_lineEnd (s : List Char) : splitLoop '\r' '\n' s = true ↔
    BlankLine s ∨ ['\n'] <+: s ∨ crlf <+: s := by
  rw [← areHeadersSplit_iff]
  unfold areHeadersSplit
  cases s with
  | nil => simp [splitLoop, crlf]
  | cons c s =>
    cases s with
    | nil => simp [splitLoop, crlf, eq_comm]
    | cons d s =>
      have hlf : ['\n'] <+: c :: d :: s ↔ c = '\n' := by simp [eq_comm]
      have hcrlf : crlf <+: c :: d :: s ↔ c = '\r' ∧ d = '\n' := by simp [crlf, eq_comm]
      rw [hlf, hcrlf]
      simp only [splitLoop]
      grind

/-- A blank line comes before the end. -/
def EndsEarly (s : List Char) : Prop := ∃ p t, s = p ++ t ∧ t ≠ [] ∧ BlankLine p

theorem endsEarly_concat (s : List Char) (c : Char) : EndsEarly (s ++ [c]) ↔ BlankLine s := by
  constructor
  · rintro ⟨p, t, heq, ht, hp⟩
    have hprefix : p <+: s := by
      rcases List.prefix_concat_iff.mp ⟨t, heq.symm⟩ with h | h
      · exact absurd (List.append_right_eq_self.mp (h ▸ heq.symm)) ht
      · exact h
    exact hp.imp (·.trans hprefix.isInfix) (·.trans hprefix.isInfix)
  · exact fun h => ⟨s, [c], rfl, by simp, h⟩

namespace TxResponse

variable {r : TxResponse}

theorem not_mem_toDecString {c : Char} (hc : c.isDigit = false) (n : Nat) :
    c ∉ toDecString n := by
  intro h
  rw [isDigit_of_mem_toDecString h] at hc
  cases hc

/-- What `message` adds, and the first half of the blank line, split nothing. -/
theorem splitLoop_addedHeader (n : Nat) (a b : Char) :
    splitLoop a b (r.addedHeader n ++ ['\r']) = false := by
  unfold addedHeader
  split
  · have hname : '\n' ∉ "Content-Length".toList ++ ([':', ' '] ++ toDecString n) := by
      have := not_mem_toDecString (c := '\n') (by decide) n
      simp [this]
    have hline := splitLoop_line (by simp) hname ['\r'] (a := a) (b := b)
    simp only [List.append_assoc] at hline
    simp only [contentLengthHeader, toHeader, List.append_assoc]
    rw [hline]
    rfl
  · rfl

/-- **When the text of a response has a blank line before its end.** -/
theorem endsEarly_message_iff (n : Nat) (hreason : '\n' ∉ r.reason)
    (hmajor : r.majorVersion ≠ '\n') (hminor : r.minorVersion ≠ '\n') :
    EndsEarly (r.message n) ↔
      r.isValid = false ∨ ['\n'] <+: r.headerString ∨ crlf <+: r.headerString := by
  have htext : r.message n =
      (r.lineText ++ (r.headerString ++ (r.addedHeader n ++ ['\r']))) ++ ['\n'] := by
    simp [message, crlf]
  have hline : '\n' ∉ versionText r.majorVersion r.minorVersion ++
      (toDecString r.status ++ ([' '] ++ r.reason)) := by
    have := not_mem_toDecString (c := '\n') (by decide) r.status
    simp [versionText, this, hreason, Ne.symm hmajor, Ne.symm hminor]
  have hloop : ∀ s, splitLoop '0' '0' (r.lineText ++ s) = splitLoop '\r' '\n' s := by
    intro s
    have h := splitLoop_line (by simp [versionText]) hline s (a := '0') (b := '0')
    simpa [lineText] using h
  have hvalid : r.isValid = false ↔ BlankLine r.headerString := by
    rw [← areHeadersSplit_iff]
    simp [isValid]
  rw [htext, endsEarly_concat, ← areHeadersSplit_iff, areHeadersSplit, hloop,
    splitLoop_append (splitLoop_addedHeader n), splitLoop_lineEnd, hvalid]

/-- Headers that begin with an empty line pass `is_valid`, and end the response early. -/
theorem endsEarly_message_crlf :
    ({ ofCode 200 with headerString := crlf } : TxResponse).isValid = true ∧
      EndsEarly (({ ofCode 200 with headerString := crlf } : TxResponse).message 0) :=
  ⟨rfl, (endsEarly_message_iff 0 (by decide) (by decide) (by decide)).mpr
    (.inr (.inr (List.prefix_refl crlf)))⟩

end TxResponse

end Camerasp.Http
