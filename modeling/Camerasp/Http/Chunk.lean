import Camerasp.Http.Headers

/-!
# Chunks (`chunk_header` and `rx_chunk` in `chunk.hpp` and `chunk.cpp`)

The header line is a scanner; the data and the line end after it, or the trailers, follow. As for
the headers, `Wants c s c'` says that the chunk is complete with `s`, and `Wants.parse` and
`Wants.parse_part` what `parse` does with a buffer of all of `s`, or of its first part; `Refuses` is
for a chunk of which the last byte of `s` is refused.
-/

namespace Camerasp.Http

open Camerasp.Lib (Scanner)

/-- `chunk_header::Chunk`. -/
inductive ChunkState
  | sizeLs
  | size
  | extensionLs
  | extension
  | lf
  | valid
  | errorLength
  | errorCrlf
  | errorWs
  | errorSize
  deriving DecidableEq

/-- `chunk_header`. -/
structure ChunkHeader where
  size : Nat
  length : Nat
  wsCount : Nat
  hexSize : List Char
  extension : List Char
  state : ChunkState
  sizeRead : Bool
  valid : Bool

namespace ChunkHeader

/-- The constructor, and `clear`. -/
def init : ChunkHeader := ⟨0, 0, 0, [], [], .sizeLs, false, false⟩

def maxSizeDigits : Nat := 16

/-- A `ptrdiff_t` as a `size_t`. -/
def toSize (n : Int) : Nat := (n % 4294967296).toNat

/-- The case `CHUNK_SIZE`. -/
def parseSize (h : ChunkHeader) (c : Char) : Bool × ChunkHeader :=
  if isXDigit c then
    let h := { h with hexSize := h.hexSize ++ [c] }
    if h.hexSize.length > maxSizeDigits then (false, { h with state := .errorSize }) else (true, h)
  else if isEndOfLine c || c = ';' then
    let h := { h with size := toSize (fromHexString h.hexSize), sizeRead := true }
    if h.size > maxChunkSize then (false, { h with state := .errorSize })
    else if c = ';' then (true, { h with wsCount := 0, state := .extensionLs })
    else if c = '\r' then (true, { h with state := .lf })
    else (true, { h with state := .valid })
  else (false, h)

/-- The case `CHUNK_EXTENSION`. -/
def parseExtension (h : ChunkHeader) (c : Char) : Bool × ChunkHeader :=
  if !isEndOfLine c then (true, { h with extension := h.extension ++ [c] })
  else if c = '\r' then (true, { h with state := .lf })
  else (true, { h with state := .valid })

/-- The switch of `parse_char`. -/
def parseState (h : ChunkHeader) (c : Char) : Bool × ChunkHeader :=
  match h.state with
  | .sizeLs =>
    if isSpaceOrTab c then
      let h := { h with wsCount := h.wsCount + 1 }
      if h.wsCount > maxWhitespace then (false, { h with state := .errorWs }) else (true, h)
    else parseSize { h with state := .size } c
  | .size => parseSize h c
  | .extensionLs =>
    if isSpaceOrTab c then
      let h := { h with wsCount := h.wsCount + 1 }
      if h.wsCount > maxWhitespace then (false, h) else (true, h)
    else parseExtension { h with state := .extension } c
  | .extension => parseExtension h c
  | .lf => if c = '\n' then (true, { h with state := .valid }) else (false, h)
  | _ => (false, h)

def parseChar (h : ChunkHeader) (c : Char) : Bool × ChunkHeader :=
  let h := { h with length := h.length + 1 }
  parseState (if h.length > maxLineLength then { h with state := .errorLength } else h) c

def scanner : Scanner ChunkHeader Char where
  step := parseChar
  done h := h.state = .valid

def parse (h : ChunkHeader) (b : List Char) : Bool × ChunkHeader × List Char :=
  let (ok, h, rest) := scanner.scan h b
  if !ok then (false, h, rest)
  else
    let h := { h with valid := decide (h.state = .valid) }
    (h.valid, h, rest)

def isLast (h : ChunkHeader) : Bool := h.size = 0

theorem parseChar_valid (h : ChunkHeader) (c : Char) : (h.parseChar c).2.valid = h.valid := by
  unfold parseChar parseState parseSize parseExtension
  grind

theorem run_valid {h h' : ChunkHeader} {v : List Char} (hrun : scanner.run h v = some h')
    (hv : h.valid = false) : h'.valid = false :=
  Scanner.run_invariant (P := fun h => h.valid = false)
    (fun h c hv _ => (parseChar_valid h c).trans hv) hrun hv

end ChunkHeader

/-! ## What a chunk header takes -/

namespace ChunkHeader

variable {h : ChunkHeader} {v : List Char}

/-- A character within the line length. -/
theorem parseChar_eq {n : Nat} {c : Char} (hn : h.length + n ≤ maxLineLength) (h0 : 0 < n) :
    h.parseChar c = { h with length := h.length + 1 }.parseState c := by
  have hlt : ¬ h.length + 1 > maxLineLength := by omega
  simp only [parseChar, hlt, if_false]

theorem run_digits (hv : ∀ c ∈ v, isXDigit c) (hd : v.length ≤ maxSizeDigits)
    (hlen : v.length ≤ maxLineLength) :
    scanner.run init v = some { init with
      hexSize := v
      length := v.length
      state := if v = [] then .sizeLs else .size } := by
  refine Scanner.run_all (g := fun w => { init with
    hexSize := w
    length := w.length
    state := if w = [] then .sizeLs else .size }) fun w c u hw => ?_
  have hc := hv c (by simp [hw])
  rw [hw, List.length_append, List.length_cons] at hlen hd
  cases w with
  | nil =>
    have hblank := isXDigit_not_blank hc
    have hchar := parseChar_eq (c := c) (n := u.length + 1) (h := init) (by simpa [init] using hlen)
      (by simp)
    refine ⟨rfl, ?_⟩
    change init.parseChar c = _
    rw [hchar]
    simp [parseState, parseSize, init, hc, hblank, maxSizeDigits]
  | cons d w =>
    have hlt : ¬ (d :: w).length + 1 > maxSizeDigits := by omega
    have hchar := parseChar_eq (c := c) (n := u.length + 1) (h := { init with
      hexSize := d :: w
      length := (d :: w).length
      state := if d :: w = [] then .sizeLs else .size }) hlen (by simp)
    refine ⟨by simp [scanner], ?_⟩
    simp only [scanner, hchar]
    simp only [List.length_cons] at hlt
    simp [parseState, parseSize, init, hc, hlt]

theorem run_blanks (hs : h.state = .extensionLs) (hw : h.wsCount = 0)
    (hv : ∀ c ∈ v, isSpaceOrTab c) (hws : v.length ≤ maxWhitespace)
    (hlen : h.length + v.length ≤ maxLineLength) :
    scanner.run h v = some { h with wsCount := v.length, length := h.length + v.length } := by
  have hstart : h = { h with wsCount := 0, length := h.length + 0 } := by cases h; simp_all
  conv_lhs => rw [hstart]
  refine Scanner.run_all
    (g := fun w => { h with wsCount := w.length, length := h.length + w.length })
    fun w c u hw => ?_
  have hc := hv c (by simp [hw])
  rw [hw, List.length_append, ← Nat.add_assoc] at hlen
  have hlt : ¬ w.length + 1 > maxWhitespace := by
    rw [hw, List.length_append, List.length_cons] at hws
    omega
  have hchar := parseChar_eq (h := { h with wsCount := w.length, length := h.length + w.length })
    (c := c) hlen (by simp)
  refine ⟨by simp [scanner, hs], ?_⟩
  simp only [scanner, hchar]
  simp [parseState, hs, hc, hlt, Nat.add_assoc]

theorem run_extension (hs : h.state = .extensionLs) (he : h.extension = [])
    (hv : ∀ c ∈ v, isEndOfLine c = false) (ht : v.head?.any isSpaceOrTab = false)
    (hlen : h.length + v.length ≤ maxLineLength) :
    scanner.run h v = some { h with
      extension := v
      length := h.length + v.length
      state := if v = [] then .extensionLs else .extension } := by
  have hstart : h = { h with extension := [], length := h.length + 0, state := .extensionLs } := by
    cases h; simp_all
  conv_lhs => rw [hstart]
  refine Scanner.run_all (g := fun w => { h with
    extension := w
    length := h.length + w.length
    state := if w = [] then .extensionLs else .extension }) fun w c u hw => ?_
  have hc := hv c (by simp [hw])
  rw [hw, List.length_append, ← Nat.add_assoc] at hlen
  cases w with
  | nil =>
    have hc' : isSpaceOrTab c = false := by simpa [hw] using ht
    have hchar := parseChar_eq (c := c) (h := { h with extension := [], state := .extensionLs })
      hlen (by simp)
    refine ⟨by simp [scanner], ?_⟩
    simp [scanner, hchar, parseState, parseExtension, hc, hc']
  | cons d w =>
    have hchar := parseChar_eq (c := c) (h := { h with
      extension := d :: w
      length := h.length + (d :: w).length
      state := if d :: w = [] then .extensionLs else .extension }) hlen (by simp)
    refine ⟨by simp [scanner], ?_⟩
    simp only [scanner, hchar]
    simp [parseState, parseExtension, hc, Nat.add_assoc]

/-- The end of a line after an extension. -/
theorem run_crlf (hs : h.state = .extensionLs ∨ h.state = .extension)
    (hlen : h.length + 2 ≤ maxLineLength) :
    scanner.run h crlf = some { h with length := h.length + 2, state := .valid } := by
  have hcr : h.parseChar '\r' = (true, { h with length := h.length + 1, state := .lf }) := by
    rw [parseChar_eq hlen (by simp)]
    rcases hs with hs | hs <;> simp [parseState, parseExtension, hs, isSpaceOrTab, isEndOfLine]
  have hlf : { h with length := h.length + 1, state := .lf }.parseChar '\n' =
      (true, { h with length := h.length + 2, state := .valid }) := by
    have hlen' : h.length + 1 + 1 ≤ maxLineLength := hlen
    rw [parseChar_eq (h := { h with length := h.length + 1, state := .lf }) hlen' (by simp)]
    rfl
  have hopen : h.state ≠ .valid := by rcases hs with hs | hs <;> simp [hs]
  simp [crlf, Scanner.run, scanner, hopen, hcr, hlf]

/-- The header with the size its digits say. -/
def sized (h : ChunkHeader) : ChunkHeader :=
  { h with size := toSize (fromHexString h.hexSize), sizeRead := true }

/-- The end of a line after the digits. -/
theorem run_sizeEnd (hs : h.state = .size) (hn : h.sized.size ≤ maxChunkSize)
    (hlen : h.length + 2 ≤ maxLineLength) :
    scanner.run h crlf = some { h.sized with length := h.length + 2, state := .valid } := by
  have hx : isXDigit '\r' = false := by decide
  have hbig : ¬ toSize (fromHexString h.hexSize) > maxChunkSize := Nat.not_lt.mpr hn
  have hcr : h.parseChar '\r' = (true, { h.sized with length := h.length + 1, state := .lf }) := by
    rw [parseChar_eq hlen (by simp)]
    simp [parseState, parseSize, hs, hx, hbig, isEndOfLine, sized]
  have hlf : { h.sized with length := h.length + 1, state := .lf }.parseChar '\n' =
      (true, { h.sized with length := h.length + 2, state := .valid }) := by
    have hlen' : h.length + 1 + 1 ≤ maxLineLength := hlen
    rw [parseChar_eq (h := { h.sized with length := h.length + 1, state := .lf }) hlen' (by simp)]
    rfl
  simp [crlf, Scanner.run, scanner, hs, hcr, hlf]

/-- An extension follows the digits. -/
theorem run_semicolon (hs : h.state = .size) (hn : h.sized.size ≤ maxChunkSize)
    (hlen : h.length + 1 ≤ maxLineLength) :
    scanner.run h [';'] =
      some { h.sized with wsCount := 0, length := h.length + 1, state := .extensionLs } := by
  have hx : isXDigit ';' = false := by decide
  have hbig : ¬ toSize (fromHexString h.hexSize) > maxChunkSize := Nat.not_lt.mpr hn
  have hsemi : h.parseChar ';' =
      (true, { h.sized with wsCount := 0, length := h.length + 1, state := .extensionLs }) := by
    rw [parseChar_eq hlen (by simp)]
    simp [parseState, parseSize, hs, hx, hbig, isEndOfLine, sized]
  simp [Scanner.run, scanner, hs, hsemi]

theorem toSize_fromHexString (hne : v ≠ []) (hv : ∀ c ∈ v, isXDigit c)
    (hn : numeral 16 v ≤ maxChunkSize) : toSize (fromHexString v) = numeral 16 v := by
  have hmax : numeral 16 v ≤ longMax := hn.trans (by decide)
  have hlt : numeral 16 v < 4294967296 := Nat.lt_of_le_of_lt hmax (by decide)
  rw [fromHexString_eq hne hv hmax, toSize]
  omega

/-- **A chunk header line without an extension.** -/
theorem run_digits_crlf (hne : v ≠ []) (hv : ∀ c ∈ v, isXDigit c) (hd : v.length ≤ maxSizeDigits)
    (hn : numeral 16 v ≤ maxChunkSize) (hlen : (v ++ crlf).length ≤ maxLineLength) :
    ∃ h, scanner.run init (v ++ crlf) = some h ∧ h.state = .valid ∧ h.size = numeral 16 v := by
  rw [List.length_append] at hlen
  have h₁ := run_digits hv hd (by omega)
  rw [if_neg hne] at h₁
  have hsize := toSize_fromHexString hne hv hn
  have h₂ := run_sizeEnd (h := { init with hexSize := v, length := v.length, state := .size }) rfl
    (hsize.le.trans hn) hlen
  exact ⟨_, Scanner.run_trans h₁ h₂, rfl, hsize⟩

/-- **A chunk header line with an extension.** -/
theorem run_digits_extension {blanks extension : List Char} (hne : v ≠ [])
    (hv : ∀ c ∈ v, isXDigit c) (hd : v.length ≤ maxSizeDigits) (hn : numeral 16 v ≤ maxChunkSize)
    (hb : ∀ c ∈ blanks, isSpaceOrTab c) (hws : blanks.length ≤ maxWhitespace)
    (he : ∀ c ∈ extension, isEndOfLine c = false) (ht : extension.head?.any isSpaceOrTab = false)
    (hlen : (v ++ ([';'] ++ (blanks ++ (extension ++ crlf)))).length ≤ maxLineLength) :
    ∃ h, scanner.run init (v ++ ([';'] ++ (blanks ++ (extension ++ crlf)))) = some h ∧
      h.state = .valid ∧ h.size = numeral 16 v := by
  simp only [List.length_append, crlf, List.length_cons, List.length_nil] at hlen
  have h₁ := run_digits hv hd (by omega)
  rw [if_neg hne] at h₁
  have hsize := toSize_fromHexString hne hv hn
  have h₂ := run_semicolon (h := { init with hexSize := v, length := v.length, state := .size }) rfl
    (hsize.le.trans hn) (by dsimp only; omega)
  have h₃ := run_blanks (h := ⟨toSize (fromHexString v), v.length + 1, 0, v, [], .extensionLs, true,
    false⟩) rfl rfl hb hws (by dsimp only; omega)
  have h₄ := run_extension (h := ⟨toSize (fromHexString v), v.length + 1 + blanks.length,
    blanks.length, v, [], .extensionLs, true, false⟩) rfl rfl he ht (by dsimp only; omega)
  have h₅ := run_crlf (h := ⟨toSize (fromHexString v),
    v.length + 1 + blanks.length + extension.length, blanks.length, v, extension,
    if extension = [] then .extensionLs else .extension, true, false⟩) (by split <;> simp)
    (by dsimp only; omega)
  exact ⟨_, Scanner.run_trans h₁ (Scanner.run_trans h₂ (Scanner.run_trans h₃
    (Scanner.run_trans h₄ h₅))), rfl, hsize⟩

/-! ### What it refuses -/

/-- Only the end of the line completes it. -/
theorem parseChar_open (h : ChunkHeader) (c : Char) (hh : h.state ≠ .valid) (hc : c ≠ '\n') :
    (h.parseChar c).2.state ≠ .valid := by
  unfold parseChar parseState parseSize parseExtension isEndOfLine
  grind

theorem parseChar_length (h : ChunkHeader) (c : Char) :
    (h.parseChar c).2.length = h.length + 1 := by
  unfold parseChar parseState parseSize parseExtension
  grind

theorem length_lt_of_accepted {c : Char} (ha : (h.parseChar c).1 = true) :
    h.length < maxLineLength := by
  unfold parseChar parseState at ha
  grind

theorem length_le_of_run {h' : ChunkHeader} (hrun : scanner.run h v = some h') (hv : v ≠ []) :
    h.length + v.length ≤ maxLineLength := by
  induction v generalizing h with
  | nil => exact absurd rfl hv
  | cons c v ih =>
    obtain ⟨-, ha, hrest⟩ := Scanner.run_cons.mp hrun
    have hlt : h.length < maxLineLength := length_lt_of_accepted ha
    have hstep : (scanner.step h c).2.length = h.length + 1 := parseChar_length h c
    by_cases hnil : v = []
    · subst hnil
      exact hlt
    · have hlen := ih hrest hnil
      rw [List.length_cons]
      omega

/-- Digits that are taken are few. -/
theorem digits_le_of_run {h' : ChunkHeader} (hs : h.state = .sizeLs ∨ h.state = .size)
    (hd : h.hexSize.length ≤ maxSizeDigits) (hv : ∀ c ∈ v, isXDigit c)
    (hrun : scanner.run h v = some h') :
    (h'.state = .sizeLs ∨ h'.state = .size) ∧ h'.hexSize = h.hexSize ++ v ∧
      h'.hexSize.length ≤ maxSizeDigits := by
  induction v generalizing h with
  | nil =>
    cases hrun
    exact ⟨hs, by simp, hd⟩
  | cons c v ih =>
    rw [List.forall_mem_cons] at hv
    obtain ⟨-, ha, hrest⟩ := Scanner.run_cons.mp hrun
    have hstep : (h.parseChar c).2.state = .size ∧
        (h.parseChar c).2.hexSize = h.hexSize ++ [c] ∧
        (h.parseChar c).2.hexSize.length ≤ maxSizeDigits := by
      have ha : (h.parseChar c).1 = true := ha
      have hlt := length_lt_of_accepted ha
      have hdigit := hv.1
      have hblank := isXDigit_not_blank hv.1
      unfold parseChar parseState parseSize at ha ⊢
      grind
    obtain ⟨hstate, hhex, hle⟩ := ih (h := (h.parseChar c).2) (.inr hstep.1) hstep.2.2 hv.2 hrest
    refine ⟨hstate, ?_, hle⟩
    rw [hhex, hstep.2.1, List.append_assoc]
    rfl

/-- Blanks that are taken are few. -/
theorem blanks_le_of_run {h' : ChunkHeader} (hs : h.state = .extensionLs)
    (hf : h.wsCount ≤ maxWhitespace) (hv : ∀ c ∈ v, isSpaceOrTab c)
    (hrun : scanner.run h v = some h') : h.wsCount + v.length ≤ maxWhitespace := by
  induction v generalizing h with
  | nil => simpa using hf
  | cons c v ih =>
    rw [List.forall_mem_cons] at hv
    obtain ⟨-, ha, hrest⟩ := Scanner.run_cons.mp hrun
    have hstep : (h.parseChar c).2.state = .extensionLs ∧
        (h.parseChar c).2.wsCount = h.wsCount + 1 ∧ h.wsCount + 1 ≤ maxWhitespace := by
      have ha : (h.parseChar c).1 = true := ha
      have hlt := length_lt_of_accepted ha
      have hblank := hv.1
      unfold parseChar parseState at ha ⊢
      grind
    have hle := ih (h := (h.parseChar c).2) hstep.1 (by omega) hv.2 hrest
    rw [List.length_cons]
    omega

/-- A size within the limit is what its digits say. -/
theorem numeral_le_of_toSize (hne : v ≠ []) (hv : ∀ c ∈ v, isXDigit c)
    (hn : toSize (fromHexString v) ≤ maxChunkSize) : numeral 16 v ≤ maxChunkSize := by
  by_cases hmax : numeral 16 v ≤ longMax
  · rw [fromHexString_eq hne hv hmax, toSize] at hn
    have hlt : numeral 16 v < 4294967296 := Nat.lt_of_le_of_lt hmax (by decide)
    omega
  · have hbig : fromHexString v = -1 := by
      simp [fromHexString, fromString, Nat.not_le.mp hmax]
    rw [hbig] at hn
    exact absurd hn (by decide)

/-- A size whose end is taken is within the limit. -/
theorem size_le_of_accepted {c : Char} (hs : h.state = .size)
    (hc : c = '\r' ∨ c = ';') (ha : (h.parseChar c).1 = true) :
    toSize (fromHexString h.hexSize) ≤ maxChunkSize ∧
      (c = ';' → (h.parseChar c).2.state = .extensionLs ∧ (h.parseChar c).2.wsCount = 0) := by
  have hlt := length_lt_of_accepted ha
  have hcr : isXDigit '\r' = false := by decide
  have hsemi : isXDigit ';' = false := by decide
  unfold parseChar parseState parseSize isEndOfLine at ha ⊢
  rcases hc with rfl | rfl
  · grind
  · grind

/-- **A line that is taken is within the limits**: its digits, and what follows a `;`. -/
theorem limits_of_run {c : Char} {rest : List Char} {h' : ChunkHeader} (hne : v ≠ [])
    (hv : ∀ c ∈ v, isXDigit c) (hc : c = '\r' ∨ c = ';')
    (hrun : scanner.run init (v ++ c :: rest) = some h') :
    v.length ≤ maxSizeDigits ∧ numeral 16 v ≤ maxChunkSize ∧ (c = ';' →
      ∃ h₁, h₁.state = .extensionLs ∧ h₁.wsCount = 0 ∧ scanner.run h₁ rest = some h') := by
  obtain ⟨h₁, hdigits, hrest⟩ := Scanner.exists_of_run_append hrun
  obtain ⟨hstate, hhex, hle⟩ := digits_le_of_run (h := init) (.inl rfl) (by simp [init]) hv hdigits
  have hhex : h₁.hexSize = v := hhex
  have hsize : h₁.state = .size := by
    refine hstate.resolve_left fun hls => ?_
    obtain ⟨d, w, rfl⟩ := List.exists_cons_of_ne_nil hne
    obtain ⟨hlast, -⟩ := Scanner.run_cons.mp hrest
    have hforward := run_digits (v := d :: w) hv (hhex ▸ hle)
      (by simpa [init] using length_le_of_run hdigits (List.cons_ne_nil d w))
    rw [hforward] at hdigits
    cases hdigits
    exact absurd hls (by simp)
  obtain ⟨-, ha, hafter⟩ := Scanner.run_cons.mp hrest
  obtain ⟨hbig, hsemi⟩ := size_le_of_accepted hsize hc ha
  rw [hhex] at hbig hle
  exact ⟨hle, numeral_le_of_toSize hne hv hbig,
    fun h => ⟨_, (hsemi h).1, (hsemi h).2, hafter⟩⟩

/-- **A line is taken, or refused before its end.** -/
theorem run_or_refuses (hv : '\n' ∉ v) :
    (∃ h, scanner.run init (v ++ ['\n']) = some h) ∨
      ∃ u w, v ++ ['\n'] = u ++ w ∧ scanner.Refuses init u := by
  refine Scanner.run_or_refuses (fun h c hh hc => ?_) hv rfl
  have hh : h.state ≠ .valid := by simpa [scanner] using hh
  simpa [scanner] using parseChar_open h c hh hc

end ChunkHeader

/-- `rx_chunk`. -/
structure RxChunk where
  header : ChunkHeader
  data : List Char
  trailers : MessageHeaders
  valid : Bool

namespace RxChunk

def init : RxChunk := ⟨.init, [], .init, false⟩

/-- `parse` after the header line. -/
def parseBody (c : RxChunk) (b : List Char) : Bool × RxChunk × List Char :=
  if c.header.isLast then
    let (ok, trailers, rest) := c.trailers.parse b
    let c := { c with trailers := trailers }
    if !ok then (false, c, rest) else (true, { c with valid := true }, rest)
  else
    let required := c.header.size - c.data.length
    if b.length > required then
      let c := { c with data := c.data ++ b.take required }
      let rest := b.drop required
      let rest := if rest.head? = some '\r' then rest.tail else rest
      if rest.head? = some '\n' then (true, { c with valid := true }, rest.tail)
      else (false, c, rest)
    else (false, { c with data := c.data ++ b }, [])

def parse (c : RxChunk) (b : List Char) : Bool × RxChunk × List Char :=
  if c.header.valid then c.parseBody b
  else
    let (ok, header, rest) := c.header.parse b
    let c := { c with header := header }
    if !ok then (false, c, rest) else c.parseBody rest

/-! ## A chunk in buffers -/

/-- From `c` the chunk is complete with `s`, and then it is `c'`. -/
inductive Wants : RxChunk → List Char → RxChunk → Prop
  | lf {c} (hv : c.header.valid) (hl : ¬ c.header.isLast) (hd : c.data.length = c.header.size) :
      Wants c ['\n'] { c with valid := true }
  | data {c w} (hv : c.header.valid) (hl : ¬ c.header.isLast)
      (hd : c.data.length + w.length = c.header.size) :
      Wants c (w ++ ['\r', '\n']) { c with data := c.data ++ w, valid := true }
  | trailers {c s h'} (hv : c.header.valid) (hl : c.header.isLast) (hs : c.trailers.Wants s h') :
      Wants c s { c with trailers := h', valid := true }
  | header {c v h s c'} (hv : c.header.valid = false) (hrun : ChunkHeader.scanner.run c.header v = some h)
      (hne : v ≠ []) (hh : h.state = .valid) (ht : c.trailers.field = .init)
      (hs : Wants { c with header := { h with valid := true } } s c') : Wants c (v ++ s) c'

/-- The buffer does not begin with a line end in the middle of a trailer. -/
def Uncut (c : RxChunk) (b : List Char) : Prop := c.trailers.Uncut b

variable {c c' : RxChunk} {s : List Char}

theorem Wants.valid (hw : Wants c s c') : c'.valid = true := by
  induction hw with
  | lf => rfl
  | data => rfl
  | trailers => rfl
  | header _ _ _ _ _ _ ih => exact ih

/-- **A buffer that begins with the rest of the body of the chunk.** -/
theorem Wants.parseBody (hw : Wants c s c') (hv : c.header.valid) (hu : Uncut c s) (t : List Char) :
    c.parseBody (s ++ t) = (true, c', t) := by
  cases hw with
  | lf _ hl hd => simp [RxChunk.parseBody, hl, hd]
  | @data _ w _ hl hd =>
    have hreq : c.header.size - c.data.length = w.length := by omega
    have hlen : (w ++ ['\r', '\n'] ++ t).length > w.length := by simp
    have htake : (w ++ ['\r', '\n'] ++ t).take w.length = w := by simp
    have hdrop : (w ++ ['\r', '\n'] ++ t).drop w.length = '\r' :: '\n' :: t := by simp
    unfold RxChunk.parseBody
    rw [if_neg hl]
    simp only [hreq, hlen, htake, hdrop, if_true, List.head?_cons, List.tail_cons]
  | trailers _ hl hs => simp [RxChunk.parseBody, hl, hs.parse hu t]
  | header hv' => simp [hv'] at hv

/-- **A buffer that begins with the rest of the chunk.** -/
theorem Wants.parse (hw : Wants c s c') (hu : Uncut c s) (t : List Char) :
    c.parse (s ++ t) = (true, c', t) := by
  by_cases hv : c.header.valid
  · unfold RxChunk.parse
    rw [if_pos hv]
    exact hw.parseBody hv hu t
  · cases hw with
    | lf hv' => exact absurd hv' hv
    | data hv' => exact absurd hv' hv
    | trailers hv' => exact absurd hv' hv
    | @header _ v h s _ _ hrun _ hh ht hs =>
      have hscan : ChunkHeader.scanner.scan c.header (v ++ (s ++ t)) = (true, h, s ++ t) :=
        Scanner.scan_of_run hrun (by simpa [ChunkHeader.scanner] using hh) _
      have hstate : decide (h.state = .valid) = true := decide_eq_true hh
      unfold RxChunk.parse ChunkHeader.parse
      rw [List.append_assoc]
      simp only [hv, hscan, hstate, Bool.false_eq_true, if_false, Bool.not_true]
      exact hs.parseBody rfl (MessageHeaders.uncut_of_init ht s) t

theorem Wants.ne_nil (hw : Wants c s c') : s ≠ [] := by
  cases hw with
  | lf => simp
  | data => simp
  | trailers _ _ hs => exact hs.ne_nil
  | header _ _ hne => simp [hne]

/-- A buffer that ends within the data, or before the `\n` after it. -/
theorem parseBody_data {b b' w : List Char} (hs : b ++ b' = w ++ ['\r', '\n']) (hb' : b' ≠ [])
    (hv : c.header.valid) (hl : ¬ c.header.isLast)
    (hd : c.data.length + w.length = c.header.size) :
    ∃ c₁, c.parseBody b = (false, c₁, []) ∧
      Wants c₁ b' { c with data := c.data ++ w, valid := true } ∧ c₁.valid = c.valid := by
  have hreq : c.header.size - c.data.length = w.length := by omega
  unfold RxChunk.parseBody
  rw [if_neg hl]
  rcases List.append_eq_append_iff.mp hs with ⟨u, rfl, rfl⟩ | ⟨u, rfl, hu⟩
  · have hlen : ¬ b.length > (b ++ u).length := by simp
    refine ⟨{ c with data := c.data ++ b }, by simp only [hreq, hlen, if_false], ?_, rfl⟩
    have hrest : (c.data ++ b).length + u.length = c.header.size := by
      simp only [List.length_append] at hd ⊢
      omega
    have hwants := Wants.data (c := { c with data := c.data ++ b }) hv hl hrest
    rw [List.append_assoc] at hwants
    exact hwants
  · have hfull : (c.data ++ w).length = c.header.size := by rw [List.length_append, hd]
    cases u with
    | nil =>
      have hb : b' = ['\r', '\n'] := hu.symm
      subst hb
      refine ⟨{ c with data := c.data ++ w }, by simp [hreq], ?_, rfl⟩
      have hwants := Wants.data (c := { c with data := c.data ++ w }) (w := []) hv hl hfull
      rw [List.append_nil] at hwants
      exact hwants
    | cons d u =>
      obtain ⟨rfl, hu⟩ := List.cons.inj hu
      cases u with
      | nil =>
        have hb : b' = ['\n'] := by simpa using hu.symm
        subst hb
        exact ⟨{ c with data := c.data ++ w }, by simp [hreq], .lf hv hl hfull, rfl⟩
      | cons e u =>
        have hnil : b' = [] := by simp_all
        exact absurd hnil hb'

/-- **A buffer that ends within the body of the chunk.** -/
theorem Wants.parseBody_part {b b' : List Char} (hw : Wants c (b ++ b') c') (hb' : b' ≠ [])
    (hv : c.header.valid) (hu : Uncut c b) :
    ∃ c₁, c.parseBody b = (false, c₁, []) ∧ Wants c₁ b' c' ∧ c₁.valid = c.valid := by
  generalize hs : b ++ b' = s at hw
  cases hw with
  | lf _ hl hd =>
    cases b with
    | nil =>
      have hs : b' = ['\n'] := hs
      subst hs
      refine ⟨c, ?_, .lf hv hl hd, rfl⟩
      simp [RxChunk.parseBody, hl, hd]
    | cons d b => simp_all
  | @data _ w _ hl hd => exact parseBody_data hs hb' hv hl hd
  | trailers _ hl hs' =>
    subst hs
    obtain ⟨h₁, hparse, hwants, -⟩ := hs'.parse_part hb' hu
    refine ⟨{ c with trailers := h₁ }, ?_, .trailers hv hl hwants, rfl⟩
    simp [RxChunk.parseBody, hl, hparse]
  | header hv' => simp [hv'] at hv

/-- **A buffer that ends within the chunk.** -/
theorem Wants.parse_part {b b' : List Char} (hw : Wants c (b ++ b') c') (hb' : b' ≠ [])
    (hu : Uncut c b) :
    ∃ c₁, c.parse b = (false, c₁, []) ∧ Wants c₁ b' c' ∧ c₁.valid = c.valid := by
  by_cases hv : c.header.valid
  · unfold RxChunk.parse
    rw [if_pos hv]
    exact hw.parseBody_part hb' hv hu
  · generalize hs : b ++ b' = s at hw
    cases hw with
    | lf hv' => exact absurd hv' hv
    | data hv' => exact absurd hv' hv
    | trailers hv' => exact absurd hv' hv
    | @header _ v h s _ hv' hrun hne hh ht hs' =>
      have hdone : ChunkHeader.scanner.done h := by simpa [ChunkHeader.scanner] using hh
      unfold RxChunk.parse ChunkHeader.parse
      rcases Scanner.scan_cut hrun hdone hs with
        ⟨u, rfl, hscan⟩ | ⟨w, h₁, hnil, rfl, hscan, hdone₁, htaken, hrest⟩
      · have hstate : decide (h.state = .valid) = true := hdone
        obtain ⟨c₁, hparse, hrest⟩ := hs'.parseBody_part hb' rfl (MessageHeaders.uncut_of_init ht u)
        refine ⟨c₁, ?_, hrest⟩
        simp only [hv, hscan, hstate, Bool.false_eq_true, if_false, Bool.not_true]
        exact hparse
      · have hstate : decide (h₁.state = .valid) = false := hdone₁
        have hvalid : h₁.valid = false := ChunkHeader.run_valid htaken hv'
        have hsame : { h₁ with valid := false } = h₁ := by rw [← hvalid]
        refine ⟨{ c with header := h₁ }, ?_, .header hvalid hrest hnil hh ht hs', rfl⟩
        simp only [hv, hscan, hstate, hsame, Bool.false_eq_true, if_false, Bool.not_true,
          Bool.not_false, if_true]

/-! ## A chunk that is refused -/

/-- From `c` the last byte of the text is refused, in the header line or in a trailer, and `d`
follows. -/
inductive Refuses : RxChunk → List Char → Char → Prop
  | line {c v d} (hv : c.header.valid = false) (hr : ChunkHeader.scanner.Refuses c.header v) :
      Refuses c v d
  | trailers {c v d} (hv : c.header.valid) (hl : c.header.isLast) (hr : c.trailers.Refuses v d) :
      Refuses c v d
  | header {c v h s d} (hv : c.header.valid = false)
      (hrun : ChunkHeader.scanner.run c.header v = some h) (hne : v ≠ []) (hh : h.state = .valid)
      (ht : c.trailers.field = .init)
      (hs : Refuses { c with header := { h with valid := true } } s d) :
      Refuses c (v ++ s) d

variable {d : Char}

theorem Refuses.ne_nil (hr : Refuses c s d) : s ≠ [] := by
  cases hr with
  | line _ hr => exact hr.ne_nil
  | trailers _ _ hr => exact hr.ne_nil
  | header _ _ hne => simp [hne]

theorem Refuses.parseBody (hr : Refuses c s d) (hv : c.header.valid) (hu : Uncut c s)
    (t : List Char) : ∃ c', c.parseBody (s ++ d :: t) = (false, c', d :: t) := by
  cases hr with
  | line hv' => simp [hv'] at hv
  | trailers _ hl hr =>
    obtain ⟨h, hparse⟩ := hr.parse hu t
    exact ⟨{ c with trailers := h }, by simp [RxChunk.parseBody, hl, hparse]⟩
  | header hv' => simp [hv'] at hv

/-- **A buffer that begins with the text, and goes on.** -/
theorem Refuses.parse (hr : Refuses c s d) (hu : Uncut c s) (t : List Char) :
    ∃ c', c.parse (s ++ d :: t) = (false, c', d :: t) := by
  by_cases hv : c.header.valid
  · unfold RxChunk.parse
    rw [if_pos hv]
    exact hr.parseBody hv hu t
  · unfold RxChunk.parse ChunkHeader.parse
    cases hr with
    | line _ hr =>
      obtain ⟨h, a, hscan, -⟩ := hr.scan (d :: t)
      simp only [hv, hscan, Bool.false_eq_true, if_false, Bool.not_false, if_true]
      exact ⟨_, rfl⟩
    | trailers hv' => exact absurd hv' hv
    | @header _ v h s _ _ hrun _ hh ht hs =>
      have hscan :
          ChunkHeader.scanner.scan c.header (v ++ (s ++ d :: t)) = (true, h, s ++ d :: t) :=
        Scanner.scan_of_run hrun (by simpa [ChunkHeader.scanner] using hh) _
      have hstate : decide (h.state = .valid) = true := decide_eq_true hh
      rw [List.append_assoc]
      simp only [hv, hscan, hstate, Bool.false_eq_true, if_false, Bool.not_true]
      exact hs.parseBody rfl (MessageHeaders.uncut_of_init ht s) t

theorem Refuses.parseBody_part {b b' : List Char} (hr : Refuses c (b ++ b') d) (hb' : b' ≠ [])
    (hv : c.header.valid) (hu : Uncut c b) :
    ∃ c₁, c.parseBody b = (false, c₁, []) ∧ Refuses c₁ b' d ∧ c₁.valid = c.valid := by
  generalize hs : b ++ b' = s at hr
  cases hr with
  | line hv' => simp [hv'] at hv
  | trailers _ hl hr =>
    subst hs
    obtain ⟨h₁, hparse, hrest, -⟩ := hr.parse_part hb' hu
    refine ⟨{ c with trailers := h₁ }, ?_, .trailers hv hl hrest, rfl⟩
    simp [RxChunk.parseBody, hl, hparse]
  | header hv' => simp [hv'] at hv

/-- **A buffer that ends within the text.** -/
theorem Refuses.parse_part {b b' : List Char} (hr : Refuses c (b ++ b') d) (hb' : b' ≠ [])
    (hu : Uncut c b) :
    ∃ c₁, c.parse b = (false, c₁, []) ∧ Refuses c₁ b' d ∧ c₁.valid = c.valid := by
  by_cases hv : c.header.valid
  · unfold RxChunk.parse
    rw [if_pos hv]
    exact hr.parseBody_part hb' hv hu
  · unfold RxChunk.parse ChunkHeader.parse
    generalize hs : b ++ b' = s at hr
    cases hr with
    | line hv' hr =>
      subst hs
      obtain ⟨h₁, hscan, hdone, htaken, hrest⟩ := hr.scan_part hb'
      have hstate : decide (h₁.state = .valid) = false := hdone
      have hvalid : h₁.valid = false := ChunkHeader.run_valid htaken hv'
      have hsame : { h₁ with valid := false } = h₁ := by rw [← hvalid]
      refine ⟨{ c with header := h₁ }, ?_, .line hvalid hrest, rfl⟩
      simp only [hv, hscan, hstate, hsame, Bool.false_eq_true, if_false, Bool.not_true,
        Bool.not_false, if_true]
    | trailers hv' => exact absurd hv' hv
    | @header _ v h s _ hv' hrun hne hh ht hs' =>
      have hdone : ChunkHeader.scanner.done h := by simpa [ChunkHeader.scanner] using hh
      rcases Scanner.scan_cut hrun hdone hs with
        ⟨u, rfl, hscan⟩ | ⟨w, h₁, hnil, rfl, hscan, hdone₁, htaken, hrest⟩
      · have hstate : decide (h.state = .valid) = true := hdone
        obtain ⟨c₁, hparse, hrest⟩ := hs'.parseBody_part hb' rfl (MessageHeaders.uncut_of_init ht u)
        refine ⟨c₁, ?_, hrest⟩
        simp only [hv, hscan, hstate, Bool.false_eq_true, if_false, Bool.not_true]
        exact hparse
      · have hstate : decide (h₁.state = .valid) = false := hdone₁
        have hvalid : h₁.valid = false := ChunkHeader.run_valid htaken hv'
        have hsame : { h₁ with valid := false } = h₁ := by rw [← hvalid]
        refine ⟨{ c with header := h₁ }, ?_, .header hvalid hrest hnil hh ht hs', rfl⟩
        simp only [hv, hscan, hstate, hsame, Bool.false_eq_true, if_false, Bool.not_true,
          Bool.not_false, if_true]

end RxChunk

end Camerasp.Http
