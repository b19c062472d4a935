import Camerasp.Http.Character
import Camerasp.Lib.Scanner

/-!
# Header fields (`field_line` and `message_headers` in `headers.hpp` and `headers.cpp`)

`field_line` is a scanner with a look ahead for a continuation line. `message_headers::parse`
looks at the next character before each field, and again whenever it is called: a buffer that
begins with the line end of a field begun in the one before is taken for the blank line after the
headers (`parse_cut`). Otherwise the cuts make no difference: `Wants h s h'` says that from `h` the
headers are complete with `s`, and `Wants.parse` and `Wants.parse_part` say what `parse` does with
a buffer that holds all of `s`, or its first part. `Refuses h s c` and its two lemmas are for
headers of which the last byte of `s` is refused.
-/

namespace Camerasp.Http

open Camerasp.Lib (Scanner)

/-! ## One field -/

/-- `field_line::Header`. -/
inductive HeaderState
  | name
  | valueLs
  | value
  | lf
  | valid
  | errorLength
  | errorCrlf
  | errorWs
  deriving DecidableEq

/-- `field_line`. -/
structure FieldLine where
  name : List Char
  value : List Char
  length : Nat
  wsCount : Nat
  state : HeaderState
  deriving DecidableEq

namespace FieldLine

/-- The constructor, and `clear`. -/
def init : FieldLine := ⟨[], [], 0, 0, .name⟩

/-- The case `HEADER_VALUE`. -/
def parseValue (f : FieldLine) (c : Char) : Bool × FieldLine :=
  if !isEndOfLine c then (true, { f with value := f.value ++ [c] })
  else if c = '\r' then (true, { f with state := .lf })
  else (true, { f with state := .valid })

/-- The switch of `parse_char`. -/
def parseState (f : FieldLine) (c : Char) : Bool × FieldLine :=
  match f.state with
  | .name =>
    if c.isAlpha || c = '-' then (true, { f with name := f.name ++ [c.toLower] })
    else if c = ':' then (true, { f with state := .valueLs })
    else (false, f)
  | .valueLs =>
    if isSpaceOrTab c then
      let f := { f with wsCount := f.wsCount + 1 }
      if f.wsCount > maxWhitespace then (false, { f with state := .errorWs }) else (true, f)
    else parseValue { f with state := .value } c
  | .value => parseValue f c
  | .lf => if c = '\n' then (true, { f with state := .valid }) else (false, f)
  | _ => (false, f)

def parseChar (f : FieldLine) (c : Char) : Bool × FieldLine :=
  let f := { f with length := f.length + 1 }
  parseState (if f.length > maxLineLength then { f with state := .errorLength } else f) c

def scanner : Scanner FieldLine Char where
  step := parseChar
  done f := f.state = .valid

/-- `parse`: where the line ends within the buffer, the next character may continue it. -/
def parse : FieldLine → List Char → Bool × FieldLine × List Char
  | f, [] => (f.state = .valid, f, [])
  | f, c :: b =>
    if f.state = .valid then (true, f, c :: b)
    else if !(f.parseChar c).1 then (false, (f.parseChar c).2, b)
    else if (f.parseChar c).2.state = .valid && b.head?.any isSpaceOrTab then
      let f := (f.parseChar c).2
      parse { f with value := f.value ++ [' '], state := .valueLs } b
    else parse (f.parseChar c).2 b

/-- A line of which something has been taken. -/
def begun (f : FieldLine) : Bool := 0 < f.length

end FieldLine

/-! ## All fields -/

/-- `message_headers`; `fields_` as the list of its pairs. -/
structure MessageHeaders where
  fields : List (List Char × List Char)
  field : FieldLine
  valid : Bool
  length : Nat

namespace MessageHeaders

def init : MessageHeaders := ⟨[], .init, false, 0⟩

/-- What joins the values of fields of one name. -/
def separator (name : List Char) : List Char := if contains name "cookie".toList then [';'] else [',']

def add (name value : List Char) (fields : List (List Char × List Char)) :
    List (List Char × List Char) :=
  if name ∈ fields.map Prod.fst then
    fields.map fun p => if p.1 = name then (p.1, p.2 ++ (separator name ++ value)) else p
  else fields ++ [(name, value)]

/-- The headers with a complete field. -/
def take (h : MessageHeaders) (f : FieldLine) : MessageHeaders :=
  { h with
    length := h.length + (f.name.length + f.value.length)
    fields := add f.name f.value h.fields
    field := .init }

def tooLong (h : MessageHeaders) : Bool :=
  h.length > maxHeaderLength || h.fields.length > maxHeaderNumber

/-- The loop of `parse`; every round takes a character. -/
def parseFields : Nat → MessageHeaders → List Char → Bool × MessageHeaders × List Char
  | 0, h, b => (true, h, b)
  | _ + 1, h, [] => (true, h, [])
  | n + 1, h, c :: b =>
    if isEndOfLine c then (true, h, c :: b)
    else
      let (ok, f, rest) := h.field.parse (c :: b)
      if !ok then (false, { h with field := f }, rest)
      else
        let h := h.take f
        if h.tooLong then (false, h, rest) else parseFields n h rest

/-- The blank line. -/
def parseBlank (h : MessageHeaders) : List Char → Bool × MessageHeaders × List Char
  | [] => (false, h, [])
  | c :: b =>
    if !isEndOfLine c then (false, h, c :: b)
    else
      let rest := if c = '\r' then b else c :: b
      match rest with
      | '\n' :: rest => (true, { h with valid := true }, rest)
      | rest => (false, h, rest)

def parse (h : MessageHeaders) (b : List Char) : Bool × MessageHeaders × List Char :=
  let (ok, h, rest) := parseFields b.length h b
  if !ok then (false, h, rest) else parseBlank h rest

def find (h : MessageHeaders) (name : String) : List Char :=
  ((h.fields.find? fun p => p.1 = name.toList).map Prod.snd).getD []

def contentLength (h : MessageHeaders) : Int :=
  if h.find "content-length" = [] then 0 else fromDecString (h.find "content-length")

def isChunked (h : MessageHeaders) : Bool :=
  h.find "transfer-encoding" ≠ [] &&
    !contains (lower (h.find "transfer-encoding")) "identity".toList

def closeConnection (h : MessageHeaders) : Bool :=
  contains (lower (h.find "connection")) "close".toList

def expectContinue (h : MessageHeaders) : Bool :=
  contains (lower (h.find "expect")) "100-continue".toList

end MessageHeaders

/-! ## A field in buffers -/

namespace FieldLine

variable {f f' : FieldLine} {v t : List Char}

/-- **A buffer that begins with what completes the field**, no continuation following. -/
theorem parse_of_run (h : scanner.run f v = some f') (hv : v ≠ []) (hf : f'.state = .valid)
    (ht : t.head?.any isSpaceOrTab = false) : f.parse (v ++ t) = (true, f', t) := by
  induction v generalizing f with
  | nil => exact absurd rfl hv
  | cons c v ih =>
    obtain ⟨hd, ha, hrun⟩ := Scanner.run_cons.mp h
    have hd : f.state ≠ .valid := by simpa [scanner] using hd
    have ha : (f.parseChar c).1 = true := ha
    have hrun : scanner.run (f.parseChar c).2 v = some f' := hrun
    simp only [List.cons_append, parse, hd, ha, if_false, Bool.not_true, Bool.false_eq_true]
    cases v with
    | nil =>
      cases hrun
      simp only [List.nil_append, ht, Bool.and_false, Bool.false_eq_true, if_false]
      cases t <;> simp [parse, hf]
    | cons d v =>
      have hnext := Scanner.not_done_of_run hrun (List.cons_ne_nil d v)
      simp only [scanner, decide_eq_false_iff_not] at hnext
      simp only [hnext, decide_false, Bool.false_and, Bool.false_eq_true, if_false]
      exact ih hrun (List.cons_ne_nil d v)

/-- A buffer that ends before the field does. -/
theorem parse_open (hv : scanner.run f v = some f') (hend : f'.state ≠ .valid) :
    f.parse v = (false, f', []) := by
  induction v generalizing f with
  | nil =>
    cases hv
    simp [parse, hend]
  | cons c v ih =>
    obtain ⟨hd, ha, hrun⟩ := Scanner.run_cons.mp hv
    have hd : f.state ≠ .valid := by simpa [scanner] using hd
    have ha : (f.parseChar c).1 = true := ha
    have hrun : scanner.run (f.parseChar c).2 v = some f' := hrun
    have hnext : (f.parseChar c).2.state ≠ .valid := by
      cases v with
      | nil =>
        cases hrun
        exact hend
      | cons d v =>
        simpa [scanner] using Scanner.not_done_of_run hrun (List.cons_ne_nil d v)
    simp only [parse, hd, ha, hnext, if_false, Bool.not_true, Bool.false_eq_true, decide_false,
      Bool.false_and]
    exact ih hrun

/-- **A buffer that ends within the field.** -/
theorem parse_of_run_append (h : scanner.run f (v ++ t) = some f') (ht : t ≠ []) :
    ∃ f₁, f.parse v = (false, f₁, []) ∧ scanner.run f v = some f₁ ∧
      scanner.run f₁ t = some f' := by
  obtain ⟨f₁, hv, hrun⟩ := Scanner.exists_of_run_append h
  have hend := Scanner.not_done_of_run hrun ht
  simp only [scanner, decide_eq_false_iff_not] at hend
  exact ⟨f₁, parse_open hv hend, hv, hrun⟩

/-- **A buffer that begins with a line that is refused.** -/
theorem parse_of_refuses (h : scanner.Refuses f v) (t : List Char) :
    ∃ f', f.parse (v ++ t) = (false, f', t) := by
  induction h with
  | @here f c hd ha =>
    have hd : f.state ≠ .valid := by simpa [scanner] using hd
    have ha : (f.parseChar c).1 = false := ha
    exact ⟨(f.parseChar c).2, by simp [parse, hd, ha]⟩
  | @there f c v hd ha hr ih =>
    obtain ⟨f', hparse⟩ := ih
    have hnext : (f.parseChar c).2.state ≠ .valid := by simpa [scanner] using hr.not_done
    have hd : f.state ≠ .valid := by simpa [scanner] using hd
    have ha : (f.parseChar c).1 = true := ha
    refine ⟨f', ?_⟩
    simp only [List.cons_append, parse, hd, ha, hnext, if_false, Bool.not_true, Bool.false_eq_true,
      decide_false, Bool.false_and]
    exact hparse

/-- **A buffer that ends within one.** -/
theorem parse_of_refuses_append (h : scanner.Refuses f (v ++ t)) (ht : t ≠ []) :
    ∃ f₁, f.parse v = (false, f₁, []) ∧ scanner.run f v = some f₁ ∧ scanner.Refuses f₁ t := by
  obtain ⟨f₁, hv, hr⟩ := h.of_append ht
  have hend := hr.not_done
  simp only [scanner, decide_eq_false_iff_not] at hend
  exact ⟨f₁, parse_open hv hend, hv, hr⟩

/-- Each character taken counts. -/
theorem parseChar_length (f : FieldLine) (c : Char) : (f.parseChar c).2.length = f.length + 1 := by
  unfold parseChar parseState parseValue
  grind

theorem run_length (h : scanner.run f v = some f') : f'.length = f.length + v.length := by
  induction v generalizing f with
  | nil =>
    cases h
    rfl
  | cons c v ih =>
    obtain ⟨-, -, hrun⟩ := Scanner.run_cons.mp h
    have hstep : (scanner.step f c).2.length = f.length + 1 := parseChar_length f c
    rw [ih hrun, hstep, List.length_cons]
    omega

/-- A field begins with neither a blank nor a line end. -/
theorem head_of_run {c : Char} (h : scanner.run init (c :: v) = some f') :
    isSpaceOrTab c = false ∧ isEndOfLine c = false := by
  obtain ⟨-, ha, -⟩ := Scanner.run_cons.mp h
  constructor
  · by_contra hc
    rw [Bool.not_eq_false, isSpaceOrTab_iff] at hc
    rcases hc with rfl | rfl <;> exact absurd ha (by decide)
  · by_contra hc
    rw [Bool.not_eq_false, isEndOfLine_iff] at hc
    rcases hc with rfl | rfl <;> exact absurd ha (by decide)

end FieldLine

/-! ## What a field line takes -/

/-- The end of a line. -/
def crlf : List Char := ['\r', '\n']

/-- The line of a field. -/
def fieldText (name blanks value : List Char) : List Char :=
  name ++ ([':'] ++ (blanks ++ (value ++ crlf)))

theorem length_fieldText (name blanks value : List Char) :
    (fieldText name blanks value).length = name.length + blanks.length + value.length + 3 := by
  simp only [fieldText, crlf, List.length_append, List.length_cons, List.length_nil]
  omega

namespace FieldLine

variable {f : FieldLine} {v : List Char}

/-- A character within the line length. -/
theorem parseChar_eq {n : Nat} {c : Char} (hn : f.length + n ≤ maxLineLength) (h : 0 < n) :
    f.parseChar c = { f with length := f.length + 1 }.parseState c := by
  have hlt : ¬ f.length + 1 > maxLineLength := by omega
  simp only [parseChar, hlt, if_false]

theorem run_name (hv : ∀ c ∈ v, (c.isAlpha || c = '-') = true) (hlen : v.length ≤ maxLineLength) :
    scanner.run init v = some { init with name := lower v, length := v.length } := by
  refine Scanner.run_all (g := fun w => { init with name := lower w, length := w.length })
    fun w c u hw => ?_
  have hc := hv c (by simp [hw])
  rw [hw, List.length_append] at hlen
  have hchar := parseChar_eq (f := { init with name := lower w, length := w.length }) (c := c)
    (by simpa [init] using hlen) (by simp)
  refine ⟨rfl, ?_⟩
  simp only [scanner, hchar]
  simp [parseState, init, hc, lower]

theorem run_blanks (hs : f.state = .valueLs) (hf : f.wsCount = 0) (hv : ∀ c ∈ v, isSpaceOrTab c)
    (hws : v.length ≤ maxWhitespace) (hlen : f.length + v.length ≤ maxLineLength) :
    scanner.run f v = some { f with wsCount := v.length, length := f.length + v.length } := by
  have hstart : f = { f with wsCount := 0, length := f.length + 0 } := by cases f; simp_all
  conv_lhs => rw [hstart]
  refine Scanner.run_all
    (g := fun w => { f with wsCount := w.length, length := f.length + w.length })
    fun w c u hw => ?_
  have hc := hv c (by simp [hw])
  rw [hw, List.length_append, ← Nat.add_assoc] at hlen
  have hlt : ¬ w.length + 1 > maxWhitespace := by
    rw [hw, List.length_append, List.length_cons] at hws
    omega
  have hchar := parseChar_eq (f := { f with wsCount := w.length, length := f.length + w.length })
    (c := c) hlen (by simp)
  refine ⟨by simp [scanner, hs], ?_⟩
  simp only [scanner, hchar]
  simp [parseState, hs, hc, hlt, Nat.add_assoc]

theorem run_value (hs : f.state = .valueLs) (hf : f.value = []) (hv : ∀ c ∈ v, isEndOfLine c = false)
    (ht : v.head?.any isSpaceOrTab = false) (hlen : f.length + v.length ≤ maxLineLength) :
    scanner.run f v = some { f with
      value := v
      length := f.length + v.length
      state := if v = [] then .valueLs else .value } := by
  have hstart : f = { f with value := [], length := f.length + 0, state := .valueLs } := by
    cases f; simp_all
  conv_lhs => rw [hstart]
  refine Scanner.run_all (g := fun w => { f with
    value := w
    length := f.length + w.length
    state := if w = [] then .valueLs else .value }) fun w c u hw => ?_
  have hc := hv c (by simp [hw])
  rw [hw, List.length_append, ← Nat.add_assoc] at hlen
  cases w with
  | nil =>
    have hc' : isSpaceOrTab c = false := by simpa [hw] using ht
    have hchar := parseChar_eq (c := c) (f := { f with value := [], state := .valueLs })
      hlen (by simp)
    refine ⟨by simp [scanner], ?_⟩
    simp [scanner, hchar, parseState, parseValue, hc, hc']
  | cons d w =>
    have hchar := parseChar_eq (c := c) (f := { f with
      value := d :: w
      length := f.length + (d :: w).length
      state := if d :: w = [] then .valueLs else .value }) hlen (by simp)
    refine ⟨by simp [scanner], ?_⟩
    simp only [scanner, hchar]
    simp [parseState, parseValue, hc, Nat.add_assoc]

theorem run_crlf (hs : f.state = .valueLs ∨ f.state = .value)
    (hlen : f.length + 2 ≤ maxLineLength) :
    scanner.run f crlf = some { f with length := f.length + 2, state := .valid } := by
  have hcr : f.parseChar '\r' = (true, { f with length := f.length + 1, state := .lf }) := by
    rw [parseChar_eq hlen (by simp)]
    rcases hs with hs | hs <;> simp [parseState, parseValue, hs, isSpaceOrTab, isEndOfLine]
  have hlf : { f with length := f.length + 1, state := .lf }.parseChar '\n' =
      (true, { f with length := f.length + 2, state := .valid }) := by
    have hlen' : f.length + 1 + 1 ≤ maxLineLength := hlen
    rw [parseChar_eq (f := { f with length := f.length + 1, state := .lf }) hlen' (by simp)]
    rfl
  have hopen : f.state ≠ .valid := by rcases hs with hs | hs <;> simp [hs]
  simp [crlf, Scanner.run, scanner, hopen, hcr, hlf]

/-- **A field line, from the first character on.** -/
theorem run_fieldText {name blanks value : List Char}
    (hn : ∀ c ∈ name, (c.isAlpha || c = '-') = true) (hb : ∀ c ∈ blanks, isSpaceOrTab c)
    (hws : blanks.length ≤ maxWhitespace) (hv : ∀ c ∈ value, isEndOfLine c = false)
    (ht : value.head?.any isSpaceOrTab = false)
    (hlen : (fieldText name blanks value).length ≤ maxLineLength) :
    ∃ f, scanner.run init (fieldText name blanks value) = some f ∧ f.state = .valid ∧
      f.name = lower name ∧ f.value = value := by
  rw [length_fieldText] at hlen
  have h₁ := run_name hn (by omega)
  have h₂ : scanner.run { init with name := lower name, length := name.length } [':'] =
      some ⟨lower name, [], name.length + 1, 0, .valueLs⟩ := by
    have hlt : ¬ name.length + 1 > maxLineLength := by omega
    have hcolon : (':' : Char).isAlpha = false := by decide
    simp [Scanner.run, scanner, parseChar, parseState, init, hlt, hcolon]
  have h₃ := run_blanks (f := ⟨lower name, [], name.length + 1, 0, .valueLs⟩) rfl rfl hb hws
    (by dsimp only; omega)
  have h₄ := run_value (f := ⟨lower name, [], name.length + 1 + blanks.length, blanks.length,
    .valueLs⟩) rfl rfl hv ht (by dsimp only; omega)
  have h₅ := run_crlf (f := ⟨lower name, value, name.length + 1 + blanks.length + value.length,
    blanks.length, if value = [] then .valueLs else .value⟩) (by split <;> simp)
    (by dsimp only; omega)
  exact ⟨_, Scanner.run_trans h₁ (Scanner.run_trans h₂ (Scanner.run_trans h₃
    (Scanner.run_trans h₄ h₅))), rfl, rfl, rfl⟩

/-! ### What it refuses -/

/-- Only the end of the line completes it. -/
theorem parseChar_open (f : FieldLine) (c : Char) (hf : f.state ≠ .valid) (hc : c ≠ '\n') :
    (f.parseChar c).2.state ≠ .valid := by
  unfold parseChar parseState parseValue isEndOfLine
  grind

theorem length_lt_of_accepted {c : Char} (ha : (f.parseChar c).1 = true) :
    f.length < maxLineLength := by
  unfold parseChar parseState at ha
  grind

theorem length_le_of_run {f' : FieldLine} (h : scanner.run f v = some f') (hv : v ≠ []) :
    f.length + v.length ≤ maxLineLength := by
  induction v generalizing f with
  | nil => exact absurd rfl hv
  | cons c v ih =>
    obtain ⟨-, ha, hrun⟩ := Scanner.run_cons.mp h
    have hlt : f.length < maxLineLength := length_lt_of_accepted ha
    have hstep : (scanner.step f c).2.length = f.length + 1 := parseChar_length f c
    by_cases hnil : v = []
    · subst hnil
      exact hlt
    · have hrest := ih hrun hnil
      rw [List.length_cons]
      omega

/-- A name that is taken is of letters and `-`. -/
theorem isName_of_run {f' : FieldLine} (hs : f.state = .name) (hv : ':' ∉ v)
    (h : scanner.run f v = some f') :
    f'.state = .name ∧ f'.wsCount = f.wsCount ∧ ∀ c ∈ v, (c.isAlpha || c = '-') = true := by
  induction v generalizing f with
  | nil =>
    cases h
    exact ⟨hs, rfl, by simp⟩
  | cons c v ih =>
    rw [List.mem_cons, not_or] at hv
    obtain ⟨-, ha, hrun⟩ := Scanner.run_cons.mp h
    have hstep : (f.parseChar c).2.state = .name ∧ (f.parseChar c).2.wsCount = f.wsCount ∧
        (c.isAlpha || c = '-') = true := by
      have ha : (f.parseChar c).1 = true := ha
      have hlt := length_lt_of_accepted ha
      have hcolon := Ne.symm hv.1
      unfold parseChar parseState at ha ⊢
      grind
    obtain ⟨hstate, hcount, hall⟩ := ih hstep.1 hv.2 hrun
    refine ⟨hstate, hcount.trans hstep.2.1, ?_⟩
    simp only [List.mem_cons, forall_eq_or_imp]
    exact ⟨hstep.2.2, hall⟩

/-- Blanks that are taken are few. -/
theorem blanks_le_of_run {f' : FieldLine} (hs : f.state = .valueLs)
    (hf : f.wsCount ≤ maxWhitespace) (hv : ∀ c ∈ v, isSpaceOrTab c)
    (h : scanner.run f v = some f') : f.wsCount + v.length ≤ maxWhitespace := by
  induction v generalizing f with
  | nil => simpa using hf
  | cons c v ih =>
    rw [List.forall_mem_cons] at hv
    obtain ⟨-, ha, hrun⟩ := Scanner.run_cons.mp h
    have hstep : (f.parseChar c).2.state = .valueLs ∧
        (f.parseChar c).2.wsCount = f.wsCount + 1 ∧ f.wsCount + 1 ≤ maxWhitespace := by
      have ha : (f.parseChar c).1 = true := ha
      have hlt := length_lt_of_accepted ha
      have hblank := hv.1
      unfold parseChar parseState at ha ⊢
      grind
    have hrest := ih (f := (f.parseChar c).2) hstep.1 (by omega) hv.2 hrun
    rw [List.length_cons]
    omega

/-- **A line that is taken is within the limits.** -/
theorem limits_of_run {name blanks value : List Char} {f' : FieldLine} (hn : ':' ∉ name)
    (hb : ∀ c ∈ blanks, isSpaceOrTab c)
    (h : scanner.run init (fieldText name blanks value) = some f') :
    (∀ c ∈ name, (c.isAlpha || c = '-') = true) ∧ blanks.length ≤ maxWhitespace ∧
      (fieldText name blanks value).length ≤ maxLineLength := by
  have hlen := length_le_of_run h (by simp [fieldText])
  obtain ⟨f₁, hname, hrest⟩ := Scanner.exists_of_run_append h
  obtain ⟨f₂, hcolon, hrest⟩ := Scanner.exists_of_run_append hrest
  obtain ⟨f₃, hblanks, -⟩ := Scanner.exists_of_run_append hrest
  obtain ⟨hstate, hcount, hall⟩ := isName_of_run rfl hn hname
  obtain ⟨-, ha, heq⟩ := Scanner.run_cons.mp hcolon
  have hstep : f₂.state = .valueLs ∧ f₂.wsCount = f₁.wsCount := by
    have heq : (f₁.parseChar ':').2 = f₂ := Option.some.inj heq
    have ha : (f₁.parseChar ':').1 = true := ha
    have hlt := length_lt_of_accepted ha
    have hletter : (':' : Char).isAlpha = false := by decide
    rw [← heq]
    unfold parseChar parseState at ha ⊢
    grind
  have hzero : f₂.wsCount = 0 := hstep.2.trans hcount
  have hfew := blanks_le_of_run hstep.1 (by omega) hb hblanks
  exact ⟨hall, by omega, by simpa [init] using hlen⟩

/-- **A field line is taken, or refused before its end.** -/
theorem run_or_refuses {name blanks value : List Char} (hn : '\n' ∉ name)
    (hb : ∀ c ∈ blanks, isSpaceOrTab c) (hv : ∀ c ∈ value, isEndOfLine c = false) :
    (∃ f, scanner.run init (fieldText name blanks value) = some f) ∨
      ∃ u w, fieldText name blanks value = u ++ w ∧ scanner.Refuses init u := by
  have htext : fieldText name blanks value =
      (name ++ ([':'] ++ (blanks ++ (value ++ ['\r'])))) ++ ['\n'] := by
    simp [fieldText, crlf]
  have hblank : '\n' ∉ blanks := fun h => absurd (hb _ h) (by decide)
  have hvalue : '\n' ∉ value := fun h => absurd (hv _ h) (by decide)
  rw [htext]
  refine Scanner.run_or_refuses (fun f c hf hc => ?_) (by simp [hn, hblank, hvalue]) rfl
  have hf : f.state ≠ .valid := by simpa [scanner] using hf
  simpa [scanner] using parseChar_open f c hf hc

end FieldLine

/-! ## All fields in buffers -/

namespace MessageHeaders

/-- From `h` the headers are complete with `s`, and then they are `h'`. -/
inductive Wants : MessageHeaders → List Char → MessageHeaders → Prop
  | cr {h} (hf : h.field = .init) : Wants h ['\r', '\n'] { h with valid := true }
  | lf {h} (hf : h.field = .init) : Wants h ['\n'] { h with valid := true }
  | field {h v f s h'} (hrun : FieldLine.scanner.run h.field v = some f) (hv : v ≠ [])
      (hf : f.state = .valid) (hb : h.field.begun = false → h.field = .init)
      (ht : (h.take f).tooLong = false) (hs : Wants (h.take f) s h') : Wants h (v ++ s) h'

/-- The buffer does not begin with a line end in the middle of a field. -/
def Uncut (h : MessageHeaders) (b : List Char) : Prop :=
  h.field.begun → b.head?.any isEndOfLine = false

variable {h h' : MessageHeaders} {s : List Char}

theorem uncut_of_init (hf : h.field = .init) (b : List Char) : Uncut h b := by
  intro hb
  rw [hf] at hb
  cases hb

theorem Wants.ne_nil (hw : Wants h s h') : s ≠ [] := by
  cases hw with
  | cr => exact List.cons_ne_nil _ _
  | lf => exact List.cons_ne_nil _ _
  | field _ hv => simp [hv]

/-- Between fields no continuation line follows. -/
theorem Wants.head (hw : Wants h s h') (hf : h.field = .init) :
    s.head?.any isSpaceOrTab = false := by
  cases hw with
  | cr => rfl
  | lf => rfl
  | @field _ v f s _ hrun hv =>
    cases v with
    | nil => exact absurd rfl hv
    | cons c v =>
      rw [hf] at hrun
      exact (FieldLine.head_of_run hrun).1

/-- A round of the loop starts: the next character is no line end. -/
theorem head_of_field {c : Char} {v : List Char} {f : FieldLine}
    (hrun : FieldLine.scanner.run h.field (c :: v) = some f)
    (hb : h.field.begun = false → h.field = .init) (hu : Uncut h (c :: v)) :
    isEndOfLine c = false := by
  by_cases hbegun : h.field.begun
  · exact hu hbegun
  · rw [hb (by simpa using hbegun)] at hrun
    exact (FieldLine.head_of_run hrun).2

/-- `parse` with the fuel of its loop. -/
def parseFrom (n : Nat) (h : MessageHeaders) (b : List Char) : Bool × MessageHeaders × List Char :=
  let (ok, h, rest) := parseFields n h b
  if !ok then (false, h, rest) else parseBlank h rest

theorem parseFrom_field {n : Nat} {v t : List Char} {f : FieldLine}
    (hrun : FieldLine.scanner.run h.field v = some f) (hv : v ≠ []) (hf : f.state = .valid)
    (hb : h.field.begun = false → h.field = .init) (ht : (h.take f).tooLong = false)
    (hu : Uncut h v) (hnext : t.head?.any isSpaceOrTab = false) :
    parseFrom (n + 1) h (v ++ t) = parseFrom n (h.take f) t := by
  cases v with
  | nil => exact absurd rfl hv
  | cons c v =>
    have hc := head_of_field hrun hb hu
    have hparse := FieldLine.parse_of_run hrun hv hf hnext
    rw [List.cons_append] at hparse ⊢
    simp only [parseFrom, parseFields, hc, hparse, ht, Bool.false_eq_true, if_false, Bool.not_true]

theorem Uncut.left {v w : List Char} (hu : Uncut h (v ++ w)) (hv : v ≠ []) : Uncut h v := by
  cases v with
  | nil => exact absurd rfl hv
  | cons c v => exact hu

/-- **A buffer that begins with the rest of the headers.** -/
theorem Wants.parseFrom (hw : Wants h s h') (hu : Uncut h s) (t : List Char) {n : Nat}
    (hn : (s ++ t).length ≤ n) : parseFrom n h (s ++ t) = (true, h', t) := by
  induction hw generalizing n with
  | cr hf =>
    obtain ⟨m, rfl⟩ : ∃ m, n = m + 1 := ⟨n - 1, by simp at hn; omega⟩
    rfl
  | lf hf =>
    obtain ⟨m, rfl⟩ : ∃ m, n = m + 1 := ⟨n - 1, by simp at hn; omega⟩
    rfl
  | @field h v f s h' hrun hv hf hb ht hs ih =>
    have hlen : 0 < v.length := List.length_pos_of_ne_nil hv
    rw [List.append_assoc] at hn ⊢
    rw [List.length_append] at hn
    obtain ⟨m, rfl⟩ : ∃ m, n = m + 1 := ⟨n - 1, by omega⟩
    have hnext : (s ++ t).head?.any isSpaceOrTab = false := by
      rw [List.head?_append_of_ne_nil _ hs.ne_nil]
      exact hs.head rfl
    rw [parseFrom_field hrun hv hf hb ht (hu.left hv) hnext]
    exact ih (uncut_of_init rfl s) (by omega)

theorem Wants.parse (hw : Wants h s h') (hu : Uncut h s) (t : List Char) :
    h.parse (s ++ t) = (true, h', t) :=
  hw.parseFrom hu t (Nat.le_refl _)

/-- A buffer that ends within a field. -/
theorem parseFrom_within {v w : List Char} {f : FieldLine}
    (hrun : FieldLine.scanner.run h.field (v ++ w) = some f) (hw : w ≠ [])
    (hb : h.field.begun = false → h.field = .init) (hu : Uncut h v) {n : Nat} (hn : v.length ≤ n) :
    ∃ f₁, parseFrom n h v = (false, { h with field := f₁ }, []) ∧
      FieldLine.scanner.run f₁ w = some f ∧ (f₁.begun = false → f₁ = .init) := by
  cases v with
  | nil => exact ⟨h.field, by cases n <;> rfl, hrun, hb⟩
  | cons c v =>
    obtain ⟨m, rfl⟩ : ∃ m, n = m + 1 := ⟨n - 1, by simp at hn; omega⟩
    have hc := head_of_field hrun hb hu
    obtain ⟨f₁, hparse, htaken, hrest⟩ := FieldLine.parse_of_run_append hrun hw
    refine ⟨f₁, ?_, hrest, fun hbegun => ?_⟩
    · simp only [parseFrom, parseFields, hc, hparse, Bool.false_eq_true, if_false, Bool.not_false,
        if_true]
    · have hlen := FieldLine.run_length htaken
      simp [FieldLine.begun, hlen] at hbegun

theorem Wants.parseFrom_part {b b' : List Char} (hw : Wants h (b ++ b') h') (hb' : b' ≠ [])
    (hu : Uncut h b) {n : Nat} (hn : b.length ≤ n) :
    ∃ h₁, MessageHeaders.parseFrom n h b = (false, h₁, []) ∧ Wants h₁ b' h' ∧
      h₁.valid = h.valid := by
  generalize hs : b ++ b' = s at hw
  induction hw generalizing n b with
  | @cr h hf =>
    cases b with
    | nil =>
      rw [List.nil_append] at hs
      subst hs
      exact ⟨h, by cases n <;> rfl, .cr hf, rfl⟩
    | cons c b =>
      obtain ⟨rfl, hrest⟩ := List.cons.inj hs
      obtain ⟨m, rfl⟩ : ∃ m, n = m + 1 := ⟨n - 1, by simp at hn; omega⟩
      cases b with
      | nil =>
        have hrest : b' = ['\n'] := hrest
        subst hrest
        exact ⟨h, rfl, .lf hf, rfl⟩
      | cons d b =>
        have hnil : b' = [] := by simp_all
        exact absurd hnil hb'
  | @lf h hf =>
    cases b with
    | nil =>
      rw [List.nil_append] at hs
      subst hs
      exact ⟨h, by cases n <;> rfl, .lf hf, rfl⟩
    | cons c b =>
      have hnil : b' = [] := by simp_all
      exact absurd hnil hb'
  | @field h v f s h' hrun hv hf hb ht hs' ih =>
    rcases Lib.cut_cases hs with ⟨u, rfl, rfl⟩ | ⟨w, hw, rfl, rfl⟩
    · have hlen : 0 < v.length := List.length_pos_of_ne_nil hv
      rw [List.length_append] at hn
      obtain ⟨m, rfl⟩ : ∃ m, n = m + 1 := ⟨n - 1, by omega⟩
      have hnext : u.head?.any isSpaceOrTab = false := by
        cases u with
        | nil => rfl
        | cons c u => exact hs'.head rfl
      rw [parseFrom_field hrun hv hf hb ht (hu.left hv) hnext]
      exact ih (uncut_of_init rfl u) (by omega) rfl
    · obtain ⟨f₁, hparse, hrest, hb₁⟩ := parseFrom_within hrun hw hb hu hn
      exact ⟨_, hparse, .field hrest hw hf hb₁ ht hs', rfl⟩

/-- **A buffer that ends within the headers.** -/
theorem Wants.parse_part {b b' : List Char} (hw : Wants h (b ++ b') h') (hb' : b' ≠ [])
    (hu : Uncut h b) :
    ∃ h₁, h.parse b = (false, h₁, []) ∧ Wants h₁ b' h' ∧ h₁.valid = h.valid :=
  hw.parseFrom_part hb' hu (Nat.le_refl _)

/-! ### Headers that are refused -/

/-- From `h` the last byte of the text is refused, or completes a field too many. `parse` fails
without a word about it, so the receiver takes notice only where a byte follows in the same
buffer; `c` is the one that follows. -/
inductive Refuses : MessageHeaders → List Char → Char → Prop
  | line {h v c} (hr : FieldLine.scanner.Refuses h.field v)
      (hb : h.field.begun = false → h.field = .init ∧ v.head?.any isEndOfLine = false) :
      Refuses h v c
  | limit {h v f c} (hrun : FieldLine.scanner.run h.field v = some f) (hv : v ≠ [])
      (hf : f.state = .valid) (hb : h.field.begun = false → h.field = .init)
      (ht : (h.take f).tooLong = true) (hc : isSpaceOrTab c = false) : Refuses h v c
  | field {h v f s c} (hrun : FieldLine.scanner.run h.field v = some f) (hv : v ≠ [])
      (hf : f.state = .valid) (hb : h.field.begun = false → h.field = .init)
      (ht : (h.take f).tooLong = false) (hs : Refuses (h.take f) s c)
      (hn : s.head?.any isSpaceOrTab = false) : Refuses h (v ++ s) c

variable {c : Char}

theorem Refuses.ne_nil (hr : Refuses h s c) : s ≠ [] := by
  cases hr with
  | line hr => exact hr.ne_nil
  | limit _ hv => exact hv
  | field _ hv => simp [hv]

theorem parseFields_cons {n : Nat} {b : List Char} (hc : isEndOfLine c = false) :
    parseFields (n + 1) h (c :: b) =
      let (ok, f, rest) := h.field.parse (c :: b)
      if !ok then (false, { h with field := f }, rest)
      else if (h.take f).tooLong then (false, h.take f, rest)
      else parseFields n (h.take f) rest := by
  simp only [parseFields, hc, Bool.false_eq_true, if_false]

/-- **A buffer that begins with the text, and goes on.** -/
theorem Refuses.parseFrom (hr : Refuses h s c) (hu : Uncut h s) (t : List Char) {n : Nat}
    (hn : (s ++ c :: t).length ≤ n) :
    ∃ h', MessageHeaders.parseFrom n h (s ++ c :: t) = (false, h', c :: t) := by
  induction hr generalizing n with
  | @line h v c hr hb =>
    obtain ⟨d, v, rfl⟩ := List.exists_cons_of_ne_nil hr.ne_nil
    obtain ⟨m, rfl⟩ : ∃ m, n = m + 1 := ⟨n - 1, by simp at hn; omega⟩
    have hd : isEndOfLine d = false := by
      by_cases hbegun : h.field.begun
      · exact hu hbegun
      · exact (hb (by simpa using hbegun)).2
    obtain ⟨f, hparse⟩ := FieldLine.parse_of_refuses hr (c :: t)
    rw [List.cons_append] at hparse ⊢
    exact ⟨{ h with field := f }, by simp [MessageHeaders.parseFrom, parseFields_cons hd, hparse]⟩
  | @limit h v f c hrun hv hf hb ht hc =>
    obtain ⟨d, v, rfl⟩ := List.exists_cons_of_ne_nil hv
    obtain ⟨m, rfl⟩ : ∃ m, n = m + 1 := ⟨n - 1, by simp at hn; omega⟩
    have hd := head_of_field hrun hb hu
    have hparse := FieldLine.parse_of_run hrun hv hf (t := c :: t) (by simpa using hc)
    rw [List.cons_append] at hparse ⊢
    exact ⟨h.take f, by simp [MessageHeaders.parseFrom, parseFields_cons hd, hparse, ht]⟩
  | @field h v f s c hrun hv hf hb ht hs hnext ih =>
    have hlen : 0 < v.length := List.length_pos_of_ne_nil hv
    rw [List.append_assoc] at hn ⊢
    rw [List.length_append] at hn
    obtain ⟨m, rfl⟩ : ∃ m, n = m + 1 := ⟨n - 1, by omega⟩
    rw [parseFrom_field hrun hv hf hb ht (hu.left hv)
      (by rw [List.head?_append_of_ne_nil _ hs.ne_nil]; exact hnext)]
    exact ih (uncut_of_init rfl s) (by omega)

theorem Refuses.parse (hr : Refuses h s c) (hu : Uncut h s) (t : List Char) :
    ∃ h', h.parse (s ++ c :: t) = (false, h', c :: t) :=
  hr.parseFrom hu t (Nat.le_refl _)

theorem Refuses.parseFrom_part {b b' : List Char} (hr : Refuses h (b ++ b') c) (hb' : b' ≠ [])
    (hu : Uncut h b) {n : Nat} (hn : b.length ≤ n) :
    ∃ h₁, MessageHeaders.parseFrom n h b = (false, h₁, []) ∧ Refuses h₁ b' c ∧
      h₁.valid = h.valid := by
  generalize hs : b ++ b' = s at hr
  induction hr generalizing n b with
  | @line h v c hr hb =>
    subst hs
    cases b with
    | nil => exact ⟨h, by cases n <;> rfl, .line hr hb, rfl⟩
    | cons d b =>
      obtain ⟨m, rfl⟩ : ∃ m, n = m + 1 := ⟨n - 1, by simp at hn; omega⟩
      have hd : isEndOfLine d = false := by
        by_cases hbegun : h.field.begun
        · exact hu hbegun
        · exact (hb (by simpa using hbegun)).2
      obtain ⟨f, hparse, hrun, hrest⟩ := FieldLine.parse_of_refuses_append hr hb'
      refine ⟨{ h with field := f }, ?_, .line hrest fun hbegun => ?_, rfl⟩
      · simp [MessageHeaders.parseFrom, parseFields_cons hd, hparse]
      · have hlen := FieldLine.run_length hrun
        simp [FieldLine.begun, hlen] at hbegun
  | @limit h v f c hrun hv hf hb ht hc =>
    subst hs
    obtain ⟨f₁, hparse, hrest, hb₁⟩ := parseFrom_within hrun hb' hb hu hn
    exact ⟨_, hparse, .limit hrest hb' hf hb₁ ht hc, rfl⟩
  | @field h v f s c hrun hv hf hb ht hs' hnext ih =>
    rcases Lib.cut_cases hs with ⟨u, rfl, rfl⟩ | ⟨w, hw, rfl, rfl⟩
    · have hlen : 0 < v.length := List.length_pos_of_ne_nil hv
      rw [List.length_append] at hn
      obtain ⟨m, rfl⟩ : ∃ m, n = m + 1 := ⟨n - 1, by omega⟩
      have hblank : u.head?.any isSpaceOrTab = false := by
        cases u with
        | nil => rfl
        | cons d u => exact hnext
      rw [parseFrom_field hrun hv hf hb ht (hu.left hv) hblank]
      exact ih (uncut_of_init rfl u) (by omega) rfl
    · obtain ⟨f₁, hparse, hrest, hb₁⟩ := parseFrom_within hrun hw hb hu hn
      exact ⟨_, hparse, .field hrest hw hf hb₁ ht hs' hnext, rfl⟩

/-- **A buffer that ends within the text.** -/
theorem Refuses.parse_part {b b' : List Char} (hr : Refuses h (b ++ b') c) (hb' : b' ≠ [])
    (hu : Uncut h b) :
    ∃ h₁, h.parse b = (false, h₁, []) ∧ Refuses h₁ b' c ∧ h₁.valid = h.valid :=
  hr.parseFrom_part hb' hu (Nat.le_refl _)

/-- **A line end at the head of a buffer ends the headers, whatever was begun before.** -/
theorem parse_cut (h : MessageHeaders) (t : List Char) :
    h.parse ('\n' :: t) = (true, { h with valid := true }, t) ∧
      h.parse ('\r' :: '\n' :: t) = (true, { h with valid := true }, t) :=
  ⟨rfl, rfl⟩

end MessageHeaders

end Camerasp.Http
