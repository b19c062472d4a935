import Camerasp.Http.Character
import Camerasp.Lib.Scanner

/-!
# The request line (`request_line` in `request.hpp` and `request.cpp`)

`parse_char` is the step of a scanner; `parse` runs it over a buffer and goes on with the next one
where the last one ended. `run_requestLine`: it takes a request line within its limits, wherever
the buffers end; by `limits_of_run` and `run_or_refuses` it refuses any other before its end.
-/

namespace Camerasp.Http

open Camerasp.Lib (Scanner)

/-- `request_line::Request`. -/
inductive RequestState
  | method
  | uri
  | httpH
  | httpT1
  | httpT2
  | httpP
  | httpSlash
  | httpMajor
  | httpDot
  | httpMinor
  | cr
  | lf
  | valid
  | errorCrlf
  | errorWs
  | errorMethodLength
  | errorUriLength
  deriving DecidableEq

/-- `request_line`. -/
structure RequestLine where
  method : List Char
  uri : List Char
  majorVersion : Char
  minorVersion : Char
  state : RequestState
  wsCount : Nat
  valid : Bool
  fail : Bool
  deriving DecidableEq

namespace RequestLine

/-- The constructor, and `clear`. -/
def init : RequestLine := ⟨[], [], '\x00', '\x00', .method, 0, false, false⟩

/-- A state that takes one character only. -/
def expectChar (l : RequestLine) (c d : Char) (s : RequestState) : Bool × RequestLine :=
  if c = d then (true, { l with state := s }) else (false, l)

def parseChar (l : RequestLine) (c : Char) : Bool × RequestLine :=
  match l.state with
  | .method =>
    if c.isUpper then
      let l := { l with method := l.method ++ [c] }
      if l.method.length > maxMethodLength then (false, { l with state := .errorMethodLength })
      else (true, l)
    else if isSpaceOrTab c && l.method ≠ [] then (true, { l with wsCount := 1, state := .uri })
    else (false, l)
  | .uri =>
    if isEndOfLine c then (false, l)
    else if isSpaceOrTab c then
      let l := { l with wsCount := l.wsCount + 1 }
      if l.wsCount > maxWhitespace then (false, { l with state := .errorWs })
      else if l.uri ≠ [] then (true, { l with wsCount := 1, state := .httpH })
      else (true, l)
    else
      let l := { l with uri := l.uri ++ [c] }
      if l.uri.length > maxUriLength then (false, { l with state := .errorUriLength })
      else (true, l)
  | .httpH =>
    if isSpaceOrTab c then
      let l := { l with wsCount := l.wsCount + 1 }
      if l.wsCount > maxWhitespace then (false, { l with state := .errorWs }) else (true, l)
    else l.expectChar c 'H' .httpT1
  | .httpT1 => l.expectChar c 'T' .httpT2
  | .httpT2 => l.expectChar c 'T' .httpP
  | .httpP => l.expectChar c 'P' .httpSlash
  | .httpSlash => l.expectChar c '/' .httpMajor
  | .httpMajor =>
    if c.isDigit then (true, { l with majorVersion := c, state := .httpDot }) else (false, l)
  | .httpDot => l.expectChar c '.' .httpMinor
  | .httpMinor =>
    if c.isDigit then (true, { l with minorVersion := c, state := .cr }) else (false, l)
  | .cr =>
    if c = '\r' then (true, { l with state := .lf })
    else if c = '\n' then (true, { l with state := .valid })
    else (false, { l with state := .errorCrlf })
  | .lf => l.expectChar c '\n' .valid
  | _ => (false, l)

/-- The loop of `parse`. -/
def scanner : Scanner RequestLine Char where
  step l c := ((l.parseChar c).1, { (l.parseChar c).2 with fail := !(l.parseChar c).1 })
  done l := l.state = .valid

/-- Whether the line is complete, the line, the rest of the buffer. -/
def parse (l : RequestLine) (b : List Char) : Bool × RequestLine × List Char :=
  let (ok, l, rest) := scanner.scan l b
  if !ok then (false, l, rest)
  else
    let l := { l with valid := decide (l.state = .valid) }
    (l.valid, l, rest)

/-- HTTP/1.0 or earlier. -/
def isHttp10OrEarlier (l : RequestLine) : Bool :=
  l.majorVersion ≤ '0' || (l.majorVersion == '1' && l.minorVersion == '0')

/-! ## What it takes -/

variable {l : RequestLine}

theorem parseChar_valid (l : RequestLine) (c : Char) : (l.parseChar c).2.valid = l.valid := by
  unfold parseChar expectChar
  grind

/-- In the middle of a line. -/
def Pending (l : RequestLine) : Prop := l.valid = false ∧ l.fail = false

theorem run_pending {l' : RequestLine} {v : List Char} (hrun : scanner.run l v = some l')
    (hp : l.Pending) : l'.Pending := by
  refine Scanner.run_invariant (fun l c hp ha => ⟨?_, ?_⟩) hrun hp
  · exact (parseChar_valid l c).trans hp.1
  · have ha : (l.parseChar c).1 = true := ha
    simp [scanner, ha]

theorem run_method {m : List Char} (hm : ∀ c ∈ m, c.isUpper) (hml : m.length ≤ maxMethodLength) :
    scanner.run init m = some { init with method := m } := by
  refine Scanner.run_all (g := fun w => { init with method := w }) fun w c u hw => ?_
  have hc : c.isUpper := hm c (by simp [hw])
  have hlt : ¬ w.length + 1 > maxMethodLength := by
    rw [hw, List.length_append, List.length_cons] at hml
    omega
  refine ⟨rfl, ?_⟩
  simp only [scanner, parseChar, init, hc, if_true, List.length_append, List.length_singleton, hlt,
    if_false, Bool.not_true]

theorem run_uri {u : List Char} (hs : l.state = .uri) (hf : l.fail = false) (hl : l.uri = [])
    (hu : ∀ c ∈ u, ¬ isEndOfLine c ∧ ¬ isSpaceOrTab c) (hul : u.length ≤ maxUriLength) :
    scanner.run l u = some { l with uri := u } := by
  have hstart : l = { l with uri := [] } := by rw [← hl]
  rw [hstart]
  refine Scanner.run_all (g := fun w => { l with uri := w }) fun w c t hw => ?_
  obtain ⟨he, hb⟩ := hu c (by simp [hw])
  have hlt : ¬ w.length + 1 > maxUriLength := by
    rw [hw, List.length_append, List.length_cons] at hul
    omega
  refine ⟨by simp [scanner, hs], ?_⟩
  simp only [scanner, parseChar, hs, hf, he, hb, Bool.false_eq_true, if_false, List.length_append,
    List.length_singleton, hlt, Bool.not_true]

/-- The end of the line, from the blank after the uri. -/
def versionText : List Char := [' ', 'H', 'T', 'T', 'P', '/', '1', '.', '1', '\r', '\n']

/-- The line after a request line with method `m` and uri `u`. -/
def completed (m u : List Char) : RequestLine := ⟨m, u, '1', '1', .valid, 1, false, false⟩

/-- **A request line, from the first character on.** -/
theorem run_requestLine {m u : List Char} (hm : ∀ c ∈ m, c.isUpper) (hm0 : m ≠ [])
    (hml : m.length ≤ maxMethodLength) (hu : ∀ c ∈ u, ¬ isEndOfLine c ∧ ¬ isSpaceOrTab c)
    (hu0 : u ≠ []) (hul : u.length ≤ maxUriLength) :
    scanner.run init (m ++ ([' '] ++ (u ++ versionText))) = some (completed m u) := by
  have h₁ := run_method hm hml
  have h₂ : scanner.run { init with method := m } [' '] =
      some { init with method := m, wsCount := 1, state := .uri } := by
    simp [Scanner.run, scanner, parseChar, init, isSpaceOrTab, hm0]
  have h₃ : scanner.run { init with method := m, wsCount := 1, state := .uri } u =
      some { init with method := m, uri := u, wsCount := 1, state := .uri } :=
    run_uri rfl rfl rfl hu hul
  have h₄ : scanner.run { init with method := m, uri := u, wsCount := 1, state := .uri }
      versionText = some (completed m u) := by
    simp [versionText, Scanner.run, scanner, parseChar, expectChar, init, isSpaceOrTab,
      isEndOfLine, maxWhitespace, hu0, completed]
  exact Scanner.run_trans h₁ (Scanner.run_trans h₂ (Scanner.run_trans h₃ h₄))

/-! ## What it refuses -/

/-- Only the end of the line completes it. -/
theorem parseChar_open (l : RequestLine) (c : Char) (hl : l.state ≠ .valid) (hc : c ≠ '\n') :
    (l.parseChar c).2.state ≠ .valid := by
  unfold parseChar expectChar
  grind

/-- A method that is taken is of capital letters, and short. -/
theorem isMethod_of_run {l l' : RequestLine} {m : List Char} (hs : l.state = .method)
    (hm : ∀ c ∈ m, isSpaceOrTab c = false) (hlen : l.method.length ≤ maxMethodLength)
    (hrun : scanner.run l m = some l') :
    l'.state = .method ∧ l'.uri = l.uri ∧ (∀ c ∈ m, c.isUpper) ∧
      l.method.length + m.length ≤ maxMethodLength := by
  induction m generalizing l with
  | nil =>
    cases hrun
    exact ⟨hs, rfl, by simp, by simpa using hlen⟩
  | cons c m ih =>
    rw [List.forall_mem_cons] at hm
    obtain ⟨-, ha, hrest⟩ := Scanner.run_cons.mp hrun
    have hstep : (l.parseChar c).2.state = .method ∧ (l.parseChar c).2.uri = l.uri ∧ c.isUpper ∧
        (l.parseChar c).2.method.length = l.method.length + 1 ∧
        l.method.length + 1 ≤ maxMethodLength := by
      have ha : (l.parseChar c).1 = true := ha
      have hblank := hm.1
      unfold parseChar at ha ⊢
      grind
    obtain ⟨hstate, huri, hupper, hle⟩ := ih (l := (scanner.step l c).2) hstep.1 hm.2
      (by simp only [scanner]; omega) hrest
    refine ⟨hstate, huri.trans hstep.2.1, ?_, ?_⟩
    · rw [List.forall_mem_cons]
      exact ⟨hstep.2.2.1, hupper⟩
    · simp only [scanner] at hle
      rw [List.length_cons]
      omega

/-- A uri that is taken is short. -/
theorem uri_le_of_run {l l' : RequestLine} {u : List Char} (hs : l.state = .uri)
    (hu : ∀ c ∈ u, ¬ isEndOfLine c ∧ ¬ isSpaceOrTab c) (hlen : l.uri.length ≤ maxUriLength)
    (hrun : scanner.run l u = some l') : l.uri.length + u.length ≤ maxUriLength := by
  induction u generalizing l with
  | nil => simpa using hlen
  | cons c u ih =>
    rw [List.forall_mem_cons] at hu
    obtain ⟨-, ha, hrest⟩ := Scanner.run_cons.mp hrun
    have hstep : (l.parseChar c).2.state = .uri ∧
        (l.parseChar c).2.uri.length = l.uri.length + 1 ∧ l.uri.length + 1 ≤ maxUriLength := by
      have ha : (l.parseChar c).1 = true := ha
      have hplain := hu.1
      unfold parseChar at ha ⊢
      grind
    have hle := ih (l := (scanner.step l c).2) hstep.1 hu.2 (by simp only [scanner]; omega) hrest
    simp only [scanner] at hle
    rw [List.length_cons]
    omega

/-- **A line that is taken is within the limits.** -/
theorem limits_of_run {m u : List Char} {l' : RequestLine}
    (hm : ∀ c ∈ m, isSpaceOrTab c = false) (hu : ∀ c ∈ u, ¬ isEndOfLine c ∧ ¬ isSpaceOrTab c)
    (hrun : scanner.run init (m ++ ([' '] ++ (u ++ versionText))) = some l') :
    (∀ c ∈ m, c.isUpper) ∧ m.length ≤ maxMethodLength ∧ u.length ≤ maxUriLength := by
  obtain ⟨l₁, hmethod, hrest⟩ := Scanner.exists_of_run_append hrun
  obtain ⟨l₂, hblank, hrest⟩ := Scanner.exists_of_run_append hrest
  obtain ⟨l₃, huri, -⟩ := Scanner.exists_of_run_append hrest
  obtain ⟨hstate, hnil, hupper, hle⟩ := isMethod_of_run (l := init) rfl hm (by simp [init]) hmethod
  obtain ⟨-, ha, heq⟩ := Scanner.run_cons.mp hblank
  have hstep : l₂.state = .uri ∧ l₂.uri = l₁.uri := by
    have heq : (scanner.step l₁ ' ').2 = l₂ := Option.some.inj heq
    have ha : (l₁.parseChar ' ').1 = true := ha
    have hspace : (' ' : Char).isUpper = false := by decide
    rw [← heq]
    simp only [scanner]
    unfold parseChar at ha ⊢
    grind
  have hempty : l₂.uri = [] := hstep.2.trans hnil
  have hshort := uri_le_of_run hstep.1 hu (by simp [hempty]) huri
  rw [hempty] at hshort
  exact ⟨hupper, by simpa [init] using hle, by simpa using hshort⟩

/-- **A request line is taken, or refused before its end.** -/
theorem run_or_refuses {m u : List Char} (hm : '\n' ∉ m)
    (hu : ∀ c ∈ u, ¬ isEndOfLine c ∧ ¬ isSpaceOrTab c) :
    (∃ l, scanner.run init (m ++ ([' '] ++ (u ++ versionText))) = some l) ∨
      ∃ v w, m ++ ([' '] ++ (u ++ versionText)) = v ++ w ∧ scanner.Refuses init v := by
  have htext : m ++ ([' '] ++ (u ++ versionText)) =
      (m ++ ([' '] ++ (u ++ versionText.dropLast))) ++ ['\n'] := by
    simp [versionText]
  have huri : '\n' ∉ u := fun h => (hu _ h).1 rfl
  rw [htext]
  refine Scanner.run_or_refuses (fun l c hl hc => ?_)
    (by simp [hm, huri, versionText]) rfl
  have hl : l.state ≠ .valid := by simpa [scanner] using hl
  simpa [scanner] using parseChar_open l c hl hc

end RequestLine

end Camerasp.Http
