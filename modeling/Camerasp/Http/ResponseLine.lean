import Camerasp.Http.Limits
import Camerasp.Http.Response

/-!
# The status line read back (`response_line` in `response.hpp` and `response.cpp`)

`parse_char` is the step of a scanner, as for a request line. The limits are the defaults of
`response_receiver`.

Results:
* `run_lineText`: the parser takes the status line of a response that `tx_response` writes, and
  finds its version, its status and its reason.
-/

namespace Camerasp.Http

open Camerasp.Lib (Scanner)

def maxStatusNo : Nat := 65534
def maxReasonLength : Nat := 65534

/-- `response_line::Response`. -/
inductive ResponseState
  | httpH
  | httpT1
  | httpT2
  | httpP
  | httpSlash
  | httpMajor
  | httpDot
  | httpMinor
  | httpWs
  | status
  | reason
  | cr
  | lf
  | valid
  | errorCrlf
  | errorWs
  | errorStatusValue
  | errorReasonLength
  deriving DecidableEq

/-- `response_line`. -/
structure ResponseLine where
  status : Nat
  reason : List Char
  majorVersion : Char
  minorVersion : Char
  state : ResponseState
  wsCount : Nat
  statusRead : Bool
  valid : Bool
  fail : Bool
  deriving DecidableEq

namespace ResponseLine

/-- The constructor, and `clear`. -/
def init : ResponseLine := ⟨0, [], '\x00', '\x00', .httpH, 0, false, false, false⟩

/-- A state that takes one character only. -/
def expectChar (l : ResponseLine) (c d : Char) (s : ResponseState) : Bool × ResponseLine :=
  if c = d then (true, { l with state := s }) else (false, l)

/-- One more blank, of those that are ignored. -/
def ignoreBlank (l : ResponseLine) : Bool × ResponseLine :=
  let l := { l with wsCount := l.wsCount + 1 }
  if l.wsCount > Limits.client.whitespace then (false, { l with state := .errorWs }) else (true, l)

/-- The case `RESP_CR`, and what `RESP_REASON` falls through to. -/
def parseCr (l : ResponseLine) (c : Char) : Bool × ResponseLine :=
  if c = '\r' then (true, { l with state := .lf })
  else if c = '\n' then (true, { l with state := .valid })
  else (false, { l with state := .errorCrlf })

def parseChar (l : ResponseLine) (c : Char) : Bool × ResponseLine :=
  match l.state with
  | .httpH => if isSpaceOrTab c then l.ignoreBlank else l.expectChar c 'H' .httpT1
  | .httpT1 => l.expectChar c 'T' .httpT2
  | .httpT2 => l.expectChar c 'T' .httpP
  | .httpP => l.expectChar c 'P' .httpSlash
  | .httpSlash => l.expectChar c '/' .httpMajor
  | .httpMajor =>
    if c.isDigit then (true, { l with majorVersion := c, state := .httpDot }) else (false, l)
  | .httpDot => l.expectChar c '.' .httpMinor
  | .httpMinor =>
    if c.isDigit then (true, { l with minorVersion := c, state := .httpWs }) else (false, l)
  | .httpWs =>
    if isSpaceOrTab c then (true, { l with wsCount := 1, state := .status }) else (false, l)
  | .status =>
    if c.isDigit then
      let l := { l with statusRead := true, status := l.status * 10 + digitValue c }
      if l.status > maxStatusNo then (false, { l with state := .errorStatusValue }) else (true, l)
    else if isSpaceOrTab c then
      if l.statusRead then (true, { l with wsCount := 1, state := .reason }) else l.ignoreBlank
    else (false, l)
  | .reason =>
    if isEndOfLine c then l.parseCr c
    else if l.reason = [] && isSpaceOrTab c then l.ignoreBlank
    else
      let l := { l with reason := l.reason ++ [c] }
      if l.reason.length > maxReasonLength then (false, { l with state := .errorReasonLength })
      else (true, l)
  | .cr => l.parseCr c
  | .lf => l.expectChar c '\n' .valid
  | _ => (false, l)

/-- The loop of `parse`. -/
def scanner : Scanner ResponseLine Char where
  step l c := ((l.parseChar c).1, { (l.parseChar c).2 with fail := !(l.parseChar c).1 })
  done l := l.state = .valid

/-- Whether the line is complete, the line, the rest of the buffer. -/
def parse (l : ResponseLine) (b : List Char) : Bool × ResponseLine × List Char :=
  let (ok, l, rest) := scanner.scan l b
  if !ok then (false, l, rest)
  else
    let l := { l with valid := decide (l.state = .valid) }
    (l.valid, l, rest)

/-! ## What it takes -/

variable {l : ResponseLine}

theorem parseChar_valid (l : ResponseLine) (c : Char) : (l.parseChar c).2.valid = l.valid := by
  unfold parseChar expectChar ignoreBlank parseCr
  grind

/-- In the middle of a line. -/
def Pending (l : ResponseLine) : Prop := l.valid = false ∧ l.fail = false

theorem run_pending {l' : ResponseLine} {v : List Char} (hrun : scanner.run l v = some l')
    (hp : l.Pending) : l'.Pending := by
  refine Scanner.run_invariant (fun l c hp ha => ⟨?_, ?_⟩) hrun hp
  · exact (parseChar_valid l c).trans hp.1
  · have ha : (l.parseChar c).1 = true := ha
    simp [scanner, ha]

theorem numeral_append (base : Nat) (v : List Char) (c : Char) :
    numeral base (v ++ [c]) = numeral base v * base + digitValue c := by
  simp [numeral]

theorem numeral_le_append {base : Nat} (hb : 0 < base) (v w : List Char) :
    numeral base v ≤ numeral base (v ++ w) := by
  induction w using List.reverseRecOn with
  | nil => simp
  | append_singleton w c ih =>
    rw [← List.append_assoc, numeral_append]
    exact ih.trans ((Nat.le_mul_of_pos_right _ hb).trans (Nat.le_add_right _ _))

theorem run_status {v : List Char} (hs : l.state = .status) (hf : l.fail = false)
    (hl : l.status = 0) (hr : l.statusRead = false) (hv : ∀ c ∈ v, c.isDigit)
    (hn : numeral 10 v ≤ maxStatusNo) :
    scanner.run l v = some { l with status := numeral 10 v, statusRead := decide (v ≠ []) } := by
  have hstart : l =
      { l with status := numeral 10 [], statusRead := decide ([] ≠ ([] : List Char)) } := by
    cases l; simp_all [numeral]
  conv_lhs => rw [hstart]
  refine Scanner.run_all
    (g := fun w => { l with status := numeral 10 w, statusRead := decide (w ≠ []) })
    fun w c u hw => ?_
  have hc : c.isDigit := hv c (by simp [hw])
  have hle : ¬ numeral 10 w * 10 + digitValue c > maxStatusNo := by
    have := numeral_le_append (by decide : 0 < 10) (w ++ [c]) u
    rw [numeral_append, List.append_assoc, List.singleton_append, ← hw] at this
    omega
  refine ⟨by simp [scanner, hs], ?_⟩
  simp only [scanner, parseChar, hs, hc, if_true, hle, if_false, Bool.not_true, hf,
    numeral_append]
  simp

theorem run_reason {v : List Char} (hs : l.state = .reason) (hf : l.fail = false)
    (hl : l.reason = []) (hv : ∀ c ∈ v, isEndOfLine c = false)
    (ht : v.head?.any isSpaceOrTab = false) (hlen : v.length ≤ maxReasonLength) :
    scanner.run l v = some { l with reason := v } := by
  have hstart : l = { l with reason := [] } := by rw [← hl]
  conv_lhs => rw [hstart]
  refine Scanner.run_all (g := fun w => { l with reason := w }) fun w c u hw => ?_
  have hc := hv c (by simp [hw])
  have hlt : ¬ w.length + 1 > maxReasonLength := by
    rw [hw, List.length_append, List.length_cons] at hlen
    omega
  have hblank : (decide (w = []) && isSpaceOrTab c) = false := by
    cases w with
    | nil => simpa [hw] using ht
    | cons d w => rfl
  refine ⟨by simp [scanner, hs], ?_⟩
  simp only [scanner, parseChar, hs, hc, hblank, Bool.false_eq_true, if_false, List.length_append,
    List.length_singleton, hlt, Bool.not_true, hf]

/-- The line after the status line of `r`. -/
def completed (r : TxResponse) : ResponseLine :=
  ⟨r.status, r.reason, r.majorVersion, r.minorVersion, .valid, 1, true, false, false⟩

end ResponseLine

/-- What a client can read of a status line: the version is made of digits, and the reason begins
with no blank and holds no line end. -/
structure TxResponse.Readable (r : TxResponse) : Prop where
  major : r.majorVersion.isDigit
  minor : r.minorVersion.isDigit
  status_le : r.status ≤ maxStatusNo
  isReason : ∀ c ∈ r.reason, isEndOfLine c = false
  trimmed : r.reason.head?.any isSpaceOrTab = false
  reason_le : r.reason.length ≤ maxReasonLength

/-- A phrase that a client can read. -/
def ReadableReason (s : List Char) : Prop :=
  Inline s ∧ s.head?.any isSpaceOrTab = false ∧ s.length ≤ maxReasonLength

instance (s : List Char) : Decidable (ReadableReason s) := inferInstanceAs (Decidable (_ ∧ _ ∧ _))

theorem lookup_getD {P : String → Prop} {l : List (Nat × String)} (h : ∀ p ∈ l, P p.2)
    (hdefault : P "") (n : Nat) : P ((l.lookup n).getD "") := by
  induction l with
  | nil => exact hdefault
  | cons p l ih =>
    rw [List.lookup_cons]
    split
    · exact h p (by simp)
    · exact ih fun p' hp' => h p' (by simp [hp'])

/-- Every standard phrase can be read. -/
theorem readableReason_reasonPhrase (status : Nat) : ReadableReason (reasonPhrase status) :=
  lookup_getD (P := fun s => ReadableReason s.toList) (by decide) (by decide) status

/-- **A standard response to a request with a version of digits can be read.** -/
theorem TxResponse.Readable.of_reasonPhrase {r : TxResponse} (hmajor : r.majorVersion.isDigit)
    (hminor : r.minorVersion.isDigit) (hstatus : r.status ≤ maxStatusNo)
    (hreason : r.reason = reasonPhrase r.status) : r.Readable := by
  obtain ⟨hinline, htrimmed, hlen⟩ := readableReason_reasonPhrase r.status
  rw [← hreason] at hinline htrimmed hlen
  exact ⟨hmajor, hminor, hstatus, hinline, htrimmed, hlen⟩

namespace ResponseLine

/-- **A status line, from the first character on.** -/
theorem run_lineText {r : TxResponse} (hr : r.Readable) :
    scanner.run init r.lineText = some (completed r) := by
  have h₁ : scanner.run init (TxResponse.versionText r.majorVersion r.minorVersion) =
      some ⟨0, [], r.majorVersion, r.minorVersion, .status, 1, false, false, false⟩ := by
    simp [TxResponse.versionText, Scanner.run, scanner, parseChar, expectChar, init, isSpaceOrTab,
      hr.major, hr.minor]
  have h₂ := run_status (l := ⟨0, [], r.majorVersion, r.minorVersion, .status, 1, false, false,
    false⟩) (v := toDecString r.status) rfl rfl rfl rfl (fun _ => isDigit_of_mem_toDecString)
    (by rw [numeral_toDecString]; exact hr.status_le)
  have h₃ : scanner.run ⟨numeral 10 (toDecString r.status), [], r.majorVersion, r.minorVersion,
      .status, 1, decide (toDecString r.status ≠ []), false, false⟩ [' '] =
      some ⟨r.status, [], r.majorVersion, r.minorVersion, .reason, 1, true, false, false⟩ := by
    have hdigit : (' ' : Char).isDigit = false := by decide
    simp [Scanner.run, scanner, parseChar, hdigit, isSpaceOrTab, numeral_toDecString,
      toDecString_ne_nil]
  have h₄ := run_reason (l := ⟨r.status, [], r.majorVersion, r.minorVersion, .reason, 1, true,
    false, false⟩) rfl rfl rfl hr.isReason hr.trimmed hr.reason_le
  have h₅ : scanner.run ⟨r.status, r.reason, r.majorVersion, r.minorVersion, .reason, 1, true,
      false, false⟩ crlf = some (completed r) := by
    simp [crlf, Scanner.run, scanner, parseChar, parseCr, expectChar, isEndOfLine, completed]
  exact Scanner.run_trans h₁ (Scanner.run_trans h₂ (Scanner.run_trans h₃
    (Scanner.run_trans h₄ h₅)))

end ResponseLine

end Camerasp.Http
