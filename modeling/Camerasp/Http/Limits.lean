import Camerasp.Http.Chunk

/-!
# Other limits

`Headers` and `Chunk` have the limits of the server's receiver. A client's receiver is constructed
with the defaults of `response_receiver` (`response.hpp`), which are wider. The functions that look
at a limit are here with the limits as a parameter; the others are shared.

Results:
* `parseIn_server`, of fields, of headers and of chunks: with the server's limits they are the
  functions of `Headers` and of `Chunk`.
* `MessageHeaders.Wants.parseIn` and `RxChunk.Wants.parseIn`, with their `_part`: **what the server
  takes, a receiver with wider limits takes as well, and makes the same of it**.
-/

namespace Camerasp.Http

open Camerasp.Lib (Scanner)

/-- The limits that a receiver is constructed with. -/
structure Limits where
  whitespace : Nat
  line : Nat
  headerNumber : Nat
  headerLength : Nat
  bodySize : Nat
  chunkSize : Nat

namespace Limits

/-- The defaults of `request_receiver`. -/
def server : Limits :=
  ⟨maxWhitespace, maxLineLength, maxHeaderNumber, maxHeaderLength, maxBodySize, maxChunkSize⟩

/-- The defaults of `response_receiver`. -/
def client : Limits := ⟨254, 65534, 65534, longMax, longMax, longMax⟩

/-- At least those of the server. -/
structure Wide (L : Limits) : Prop where
  whitespace : maxWhitespace ≤ L.whitespace
  line : maxLineLength ≤ L.line
  headerNumber : maxHeaderNumber ≤ L.headerNumber
  headerLength : maxHeaderLength ≤ L.headerLength
  chunkSize : maxChunkSize ≤ L.chunkSize

theorem wide_client : client.Wide := by constructor <;> decide

end Limits

/-! ## The functions -/

namespace FieldLine

/-- The switch of `parse_char`. -/
def parseStateIn (L : Limits) (f : FieldLine) (c : Char) : Bool × FieldLine :=
  match f.state with
  | .valueLs =>
    if isSpaceOrTab c then
      let f := { f with wsCount := f.wsCount + 1 }
      if f.wsCount > L.whitespace then (false, { f with state := .errorWs }) else (true, f)
    else parseValue { f with state := .value } c
  | _ => f.parseState c

def parseCharIn (L : Limits) (f : FieldLine) (c : Char) : Bool × FieldLine :=
  let f := { f with length := f.length + 1 }
  parseStateIn L (if f.length > L.line then { f with state := .errorLength } else f) c

def parseIn (L : Limits) : FieldLine → List Char → Bool × FieldLine × List Char
  | f, [] => (f.state = .valid, f, [])
  | f, c :: b =>
    if f.state = .valid then (true, f, c :: b)
    else if !(f.parseCharIn L c).1 then (false, (f.parseCharIn L c).2, b)
    else if (f.parseCharIn L c).2.state = .valid && b.head?.any isSpaceOrTab then
      let f := (f.parseCharIn L c).2
      parseIn L { f with value := f.value ++ [' '], state := .valueLs } b
    else parseIn L (f.parseCharIn L c).2 b

end FieldLine

namespace MessageHeaders

def tooLongIn (L : Limits) (h : MessageHeaders) : Bool :=
  h.length > L.headerLength || h.fields.length > L.headerNumber

/-- The loop of `parse`. -/
def parseFieldsIn (L : Limits) :
    Nat → MessageHeaders → List Char → Bool × MessageHeaders × List Char
  | 0, h, b => (true, h, b)
  | _ + 1, h, [] => (true, h, [])
  | n + 1, h, c :: b =>
    if isEndOfLine c then (true, h, c :: b)
    else
      let (ok, f, rest) := h.field.parseIn L (c :: b)
      if !ok then (false, { h with field := f }, rest)
      else
        let h := h.take f
        if h.tooLongIn L then (false, h, rest) else parseFieldsIn L n h rest

def parseIn (L : Limits) (h : MessageHeaders) (b : List Char) : Bool × MessageHeaders × List Char :=
  let (ok, h, rest) := parseFieldsIn L b.length h b
  if !ok then (false, h, rest) else parseBlank h rest

end MessageHeaders

namespace ChunkHeader

/-- The case `CHUNK_SIZE`. -/
def parseSizeIn (L : Limits) (h : ChunkHeader) (c : Char) : Bool × ChunkHeader :=
  if isXDigit c then
    let h := { h with hexSize := h.hexSize ++ [c] }
    if h.hexSize.length > maxSizeDigits then (false, { h with state := .errorSize }) else (true, h)
  else if isEndOfLine c || c = ';' then
    let h := { h with size := toSize (fromHexString h.hexSize), sizeRead := true }
    if h.size > L.chunkSize then (false, { h with state := .errorSize })
    else if c = ';' then (true, { h with wsCount := 0, state := .extensionLs })
    else if c = '\r' then (true, { h with state := .lf })
    else (true, { h with state := .valid })
  else (false, h)

/-- The switch of `parse_char`. -/
def parseStateIn (L : Limits) (h : ChunkHeader) (c : Char) : Bool × ChunkHeader :=
  match h.state with
  | .sizeLs =>
    if isSpaceOrTab c then
      let h := { h with wsCount := h.wsCount + 1 }
      if h.wsCount > L.whitespace then (false, { h with state := .errorWs }) else (true, h)
    else parseSizeIn L { h with state := .size } c
  | .size => parseSizeIn L h c
  | .extensionLs =>
    if isSpaceOrTab c then
      let h := { h with wsCount := h.wsCount + 1 }
      if h.wsCount > L.whitespace then (false, h) else (true, h)
    else parseExtension { h with state := .extension } c
  | _ => h.parseState c

def parseCharIn (L : Limits) (h : ChunkHeader) (c : Char) : Bool × ChunkHeader :=
  let h := { h with length := h.length + 1 }
  parseStateIn L (if h.length > L.line then { h with state := .errorLength } else h) c

def scannerIn (L : Limits) : Scanner ChunkHeader Char where
  step := parseCharIn L
  done h := h.state = .valid

def parseIn (L : Limits) (h : ChunkHeader) (b : List Char) : Bool × ChunkHeader × List Char :=
  let (ok, h, rest) := (scannerIn L).scan h b
  if !ok then (false, h, rest)
  else
    let h := { h with valid := decide (h.state = .valid) }
    (h.valid, h, rest)

end ChunkHeader

namespace RxChunk

/-- `parse` after the header line. -/
def parseBodyIn (L : Limits) (c : RxChunk) (b : List Char) : Bool × RxChunk × List Char :=
  if c.header.isLast then
    let (ok, trailers, rest) := c.trailers.parseIn L b
    let c := { c with trailers := trailers }
    if !ok then (false, c, rest) else (true, { c with valid := true }, rest)
  else c.parseBody b

def parseIn (L : Limits) (c : RxChunk) (b : List Char) : Bool × RxChunk × List Char :=
  if c.header.valid then c.parseBodyIn L b
  else
    let (ok, header, rest) := c.header.parseIn L b
    let c := { c with header := header }
    if !ok then (false, c, rest) else c.parseBodyIn L rest

end RxChunk

/-! ## With the server's limits -/

theorem FieldLine.parseCharIn_server : FieldLine.parseCharIn .server = FieldLine.parseChar := by
  funext f c
  unfold parseCharIn parseChar parseStateIn parseState Limits.server
  grind

theorem FieldLine.parseIn_server : FieldLine.parseIn .server = FieldLine.parse := by
  funext f b
  induction b generalizing f with
  | nil => rfl
  | cons c b ih => simp only [parseIn, parse, parseCharIn_server, ih]

theorem MessageHeaders.parseFieldsIn_server (n : Nat) (h : MessageHeaders) (b : List Char) :
    parseFieldsIn .server n h b = parseFields n h b := by
  induction n generalizing h b with
  | zero => rfl
  | succ n ih =>
    cases b with
    | nil => rfl
    | cons c b =>
      simp only [parseFieldsIn, parseFields, FieldLine.parseIn_server, ih]
      rfl

theorem MessageHeaders.parseIn_server : MessageHeaders.parseIn .server = MessageHeaders.parse := by
  funext h b
  simp only [parseIn, parse, parseFieldsIn_server]

theorem ChunkHeader.parseCharIn_server :
    ChunkHeader.parseCharIn .server = ChunkHeader.parseChar := by
  funext h c
  unfold parseCharIn parseChar parseStateIn parseState parseSizeIn parseSize Limits.server
  grind

theorem RxChunk.parseIn_server : RxChunk.parseIn .server = RxChunk.parse := by
  have hscanner : ChunkHeader.scannerIn .server = ChunkHeader.scanner := by
    unfold ChunkHeader.scannerIn
    rw [ChunkHeader.parseCharIn_server]
    rfl
  have hheader : ChunkHeader.parseIn .server = ChunkHeader.parse := by
    funext h b
    unfold ChunkHeader.parseIn
    rw [hscanner]
    rfl
  have hbody : parseBodyIn .server = parseBody := by
    funext c b
    unfold parseBodyIn
    rw [MessageHeaders.parseIn_server]
    unfold parseBody
    split <;> rfl
  funext c b
  unfold parseIn parse
  rw [hheader, hbody]

/-! ## With wider limits -/

namespace FieldLine

variable {L : Limits} {f f' : FieldLine} {b v : List Char}

/-- A limit has been exceeded. -/
def Over (f : FieldLine) : Prop := f.state = .errorLength ∨ f.state = .errorWs

theorem parseCharIn_eq (hL : L.Wide) (f : FieldLine) (c : Char)
    (h : (f.parseChar c).1 = true ∨ ¬ (f.parseChar c).2.Over) :
    f.parseCharIn L c = f.parseChar c := by
  have hline := hL.line
  have hws := hL.whitespace
  unfold Over parseChar parseState at h
  unfold parseCharIn parseChar parseStateIn parseState
  grind

theorem parseIn_eq (hL : L.Wide) (h : (f.parse b).1 = true ∨ ¬ (f.parse b).2.1.Over) :
    f.parseIn L b = f.parse b := by
  fun_induction parse f b with
  | case1 f => rfl
  | case2 f c b hvalid => simp [parseIn, hvalid]
  | case3 f c b hvalid hrefused =>
    have hchar := parseCharIn_eq hL f c (.inr (h.resolve_left (by simp)))
    simp only [parseIn, hvalid, if_false, hchar, hrefused, if_true]
  | case4 f c b hvalid haccepted hmore f₁ ih =>
    have hchar := parseCharIn_eq hL f c (.inl (by simpa using haccepted))
    simp only [parseIn, hvalid, if_false, hchar, haccepted, hmore, if_true]
    exact ih h
  | case5 f c b hvalid haccepted hmore ih =>
    have hchar := parseCharIn_eq hL f c (.inl (by simpa using haccepted))
    simp only [parseIn, hvalid, if_false, hchar, haccepted, hmore]
    exact ih h

/-- Where a limit has been exceeded, nothing is taken. -/
theorem not_over_of_run (h : scanner.run f v = some f') (hv : v ≠ []) : ¬ f.Over := by
  cases v with
  | nil => exact absurd rfl hv
  | cons c v =>
    obtain ⟨-, ha, -⟩ := Scanner.run_cons.mp h
    have ha : (f.parseChar c).1 = true := ha
    unfold parseChar parseState at ha
    unfold Over
    grind

end FieldLine

namespace MessageHeaders

variable {L : Limits} {h h' : MessageHeaders} {s b b' : List Char}

/-- A limit has been exceeded. -/
def Over (h : MessageHeaders) : Prop := h.field.Over ∨ h.tooLong = true

theorem tooLongIn_eq (hL : L.Wide) (h : MessageHeaders) (ht : h.tooLong = false) :
    h.tooLongIn L = false := by
  have hnumber := hL.headerNumber
  have hlength := hL.headerLength
  unfold tooLong at ht
  unfold tooLongIn
  grind

theorem parseFieldsIn_eq (hL : L.Wide) {n : Nat}
    (hok : (parseFields n h b).1 = true ∨ ¬ (parseFields n h b).2.1.Over) :
    parseFieldsIn L n h b = parseFields n h b := by
  fun_induction parseFields n h b with
  | case1 h b => rfl
  | case2 n h => rfl
  | case3 n h c b hend => simp [parseFieldsIn, hend]
  | case4 n h c b hend ok f rest hparse hrefused =>
    have hover : ¬ f.Over := fun hf => (hok.resolve_left (by simp)) (.inl hf)
    have hfield := FieldLine.parseIn_eq hL (f := h.field) (b := c :: b) (.inr (by rwa [hparse]))
    simp only [parseFieldsIn, hend, hfield, hparse, hrefused, if_true, if_false, Bool.false_eq_true]
  | case5 n h c b hend ok f rest hparse haccepted h₁ hlong =>
    exact absurd (.inr hlong) (hok.resolve_left (by simp))
  | case6 n h c b hend ok f rest hparse haccepted h₁ hlong ih =>
    have hfield := FieldLine.parseIn_eq hL (f := h.field) (b := c :: b)
      (.inl (by rw [hparse]; simpa using haccepted))
    have hlong' : (h.take f).tooLongIn L = false :=
      tooLongIn_eq hL (h.take f) (by simpa [h₁] using hlong)
    simp only [parseFieldsIn, hend, hfield, hparse, haccepted, hlong', if_false,
      Bool.false_eq_true]
    exact ih hok

theorem parseIn_eq (hL : L.Wide) (hok : (h.parse b).1 = true ∨ ¬ (h.parse b).2.1.Over) :
    h.parseIn L b = h.parse b := by
  have hfields : parseFieldsIn L b.length h b = parseFields b.length h b := by
    refine parseFieldsIn_eq hL ?_
    unfold parse at hok
    dsimp only at hok
    split at hok
    · exact .inr (hok.resolve_left (by simp))
    · rename_i haccepted
      exact .inl (by simpa using haccepted)
  unfold parseIn parse
  rw [hfields]

theorem length_le_add (name value : List Char) (fields : List (List Char × List Char)) :
    fields.length ≤ (add name value fields).length := by
  unfold add
  split
  · rw [List.length_map]
  · rw [List.length_append]
    exact Nat.le_add_right _ _

/-- Fields only add to the length. -/
theorem tooLong_take (f : FieldLine) (h : MessageHeaders) (ht : (h.take f).tooLong = false) :
    h.tooLong = false := by
  have hadd := length_le_add f.name f.value h.fields
  unfold tooLong take at ht
  unfold tooLong
  grind

theorem Wants.tooLong_eq (hw : Wants h s h') : h'.tooLong = h.tooLong := by
  induction hw with
  | cr => rfl
  | lf => rfl
  | field _ _ _ _ ht _ ih => rw [ih, ht, tooLong_take _ _ ht]

theorem Wants.not_over (hw : Wants h s h') (ht : h.tooLong = false) : ¬ h.Over := by
  rintro (hover | hover)
  · cases hw with
    | cr hf =>
      rw [hf] at hover
      exact absurd hover (by simp [FieldLine.Over, FieldLine.init])
    | lf hf =>
      rw [hf] at hover
      exact absurd hover (by simp [FieldLine.Over, FieldLine.init])
    | field hrun hv => exact FieldLine.not_over_of_run hrun hv hover
  · rw [ht] at hover
    cases hover

/-- **A buffer that begins with the rest of the headers.** -/
theorem Wants.parseIn (hL : L.Wide) (hw : Wants h s h') (hu : Uncut h s) (t : List Char) :
    h.parseIn L (s ++ t) = (true, h', t) := by
  have hparse := hw.parse hu t
  rw [parseIn_eq hL (.inl (by rw [hparse])), hparse]

/-- **A buffer that ends within the headers.** -/
theorem Wants.parseIn_part (hL : L.Wide) (hw : Wants h (b ++ b') h') (ht : h.tooLong = false)
    (hb' : b' ≠ []) (hu : Uncut h b) :
    ∃ h₁, h.parseIn L b = (false, h₁, []) ∧ Wants h₁ b' h' ∧ h₁.tooLong = false ∧
      h₁.valid = h.valid := by
  obtain ⟨h₁, hparse, hwants, hvalid⟩ := hw.parse_part hb' hu
  have ht₁ : h₁.tooLong = false := by rw [← hwants.tooLong_eq, hw.tooLong_eq, ht]
  refine ⟨h₁, ?_, hwants, ht₁, hvalid⟩
  rw [parseIn_eq hL (.inr (by rw [hparse]; exact hwants.not_over ht₁)), hparse]

end MessageHeaders

namespace ChunkHeader

variable {L : Limits} {h : ChunkHeader} {b : List Char}

theorem parseSizeIn_eq (hL : L.Wide) (h : ChunkHeader) (c : Char)
    (hok : (h.parseSize c).1 = true) : h.parseSizeIn L c = h.parseSize c := by
  have hsize := hL.chunkSize
  unfold parseSize at hok
  unfold parseSizeIn parseSize
  grind

theorem parseStateIn_eq (hL : L.Wide) (h : ChunkHeader) (c : Char)
    (hok : (h.parseState c).1 = true) : h.parseStateIn L c = h.parseState c := by
  have hws := hL.whitespace
  unfold parseState at hok
  unfold parseStateIn parseState
  cases hs : h.state with
  | sizeLs =>
    simp only [hs] at hok ⊢
    by_cases hc : isSpaceOrTab c
    · simp only [hc, if_true] at hok ⊢
      grind
    · simp only [hc] at hok ⊢
      exact parseSizeIn_eq hL _ c hok
  | size =>
    simp only [hs] at hok ⊢
    exact parseSizeIn_eq hL _ c hok
  | extensionLs =>
    simp only [hs] at hok ⊢
    grind
  | _ => rfl

theorem parseCharIn_eq (hL : L.Wide) (h : ChunkHeader) (c : Char)
    (hok : (h.parseChar c).1 = true) : h.parseCharIn L c = h.parseChar c := by
  have hline := hL.line
  unfold parseChar at hok
  unfold parseCharIn parseChar
  by_cases hlong : h.length + 1 > maxLineLength
  · simp [hlong, parseState] at hok
  · have hlong' : ¬ h.length + 1 > L.line := by omega
    simp only [hlong, hlong', if_false] at hok ⊢
    exact parseStateIn_eq hL _ c hok

theorem scanIn_eq (hL : L.Wide) (hok : (scanner.scan h b).1 = true) :
    (scannerIn L).scan h b = scanner.scan h b := by
  induction b generalizing h with
  | nil => rfl
  | cons c b ih =>
    simp only [Scanner.scan] at hok ⊢
    have hdone : (scannerIn L).done h = scanner.done h := rfl
    rw [hdone]
    by_cases hd : scanner.done h
    · rw [if_pos hd, if_pos hd]
    · rw [if_neg hd] at hok
      rw [if_neg hd, if_neg hd]
      split at hok
      · rename_i ha
        have hstep : (scannerIn L).step h c = scanner.step h c := parseCharIn_eq hL h c ha
        rw [hstep, if_pos ha, if_pos ha]
        exact ih hok
      · cases hok

theorem parseIn_eq (hL : L.Wide) (hok : (scanner.scan h b).1 = true) :
    h.parseIn L b = h.parse b := by
  unfold parseIn parse
  rw [scanIn_eq hL hok]

end ChunkHeader

namespace RxChunk

variable {L : Limits} {c c' : RxChunk} {s b b' : List Char}

theorem parseBodyIn_eq (hL : L.Wide)
    (hok : (c.parseBody b).1 = true ∨
      (c.header.isLast = true → ¬ (c.parseBody b).2.1.trailers.Over)) :
    c.parseBodyIn L b = c.parseBody b := by
  unfold parseBodyIn
  split
  · rename_i hlast
    have htrailers : c.trailers.parseIn L b = c.trailers.parse b := by
      refine MessageHeaders.parseIn_eq hL ?_
      unfold parseBody at hok
      simp only [if_pos hlast] at hok
      split at hok
      · exact .inr (hok.resolve_left (by simp) hlast)
      · rename_i haccepted
        exact .inl (by simpa using haccepted)
    rw [htrailers]
    unfold parseBody
    rw [if_pos hlast]
  · rfl

/-- What the headers of a chunk may not be over. -/
theorem Wants.not_over (hw : Wants c s c') (ht : c.trailers.tooLong = false)
    (hv : c.header.valid = true) (hlast : c.header.isLast = true) : ¬ c.trailers.Over := by
  cases hw with
  | lf _ hl => exact absurd hlast hl
  | data _ hl => exact absurd hlast hl
  | trailers _ _ hs => exact hs.not_over ht
  | header hv' => simp [hv'] at hv

theorem Wants.tooLong_eq (hw : Wants c s c') : c'.trailers.tooLong = c.trailers.tooLong := by
  induction hw with
  | lf => rfl
  | data => rfl
  | trailers _ _ hs => exact hs.tooLong_eq
  | header _ _ _ _ _ _ ih => exact ih

/-- The server's receiver takes the header line. -/
theorem Wants.scan_ok {t : List Char} (hw : Wants c s c') (hs : b ++ b' = s ++ t)
    (hv : c.header.valid = false) : (ChunkHeader.scanner.scan c.header b).1 = true := by
  cases hw with
  | lf hv' => simp [hv] at hv'
  | data hv' => simp [hv] at hv'
  | trailers hv' => simp [hv] at hv'
  | @header _ v h _ _ _ hrun _ hh _ _ =>
    rw [List.append_assoc] at hs
    have hdone : ChunkHeader.scanner.done h := by simpa [ChunkHeader.scanner] using hh
    rcases Scanner.scan_cut hrun hdone hs with ⟨u, -, hscan⟩ | ⟨w, u, -, -, hscan, -⟩
    · rw [hscan]
    · rw [hscan]

theorem parseBody_header (c : RxChunk) (b : List Char) :
    (c.parseBody b).2.1.header = c.header := by
  unfold parseBody
  grind

theorem valid_of_parse {h : ChunkHeader} (hok : (h.parse b).1 = true) :
    (h.parse b).2.1.valid = true := by
  unfold ChunkHeader.parse at hok ⊢
  grind

theorem parseIn_eq (hL : L.Wide)
    (hscan : c.header.valid = false → (ChunkHeader.scanner.scan c.header b).1 = true)
    (hok : (c.parse b).1 = true ∨ ((c.parse b).2.1.header.valid = true →
      (c.parse b).2.1.header.isLast = true → ¬ (c.parse b).2.1.trailers.Over)) :
    c.parseIn L b = c.parse b := by
  unfold parse at hok
  unfold parseIn parse
  by_cases hv : c.header.valid
  · simp only [hv, if_true] at hok ⊢
    refine parseBodyIn_eq hL (hok.imp_right fun hover hlast => ?_)
    rw [parseBody_header] at hover
    exact hover hv hlast
  · rw [Bool.not_eq_true] at hv
    rw [ChunkHeader.parseIn_eq hL (hscan hv)]
    simp only [hv, Bool.false_eq_true, if_false] at hok ⊢
    split
    · rfl
    · rename_i haccepted
      rw [if_neg haccepted] at hok
      refine parseBodyIn_eq hL (hok.imp_right fun hover hlast => ?_)
      rw [parseBody_header] at hover
      exact hover (valid_of_parse (by simpa using haccepted)) hlast

/-- **A buffer that begins with the rest of the chunk.** -/
theorem Wants.parseIn (hL : L.Wide) (hw : Wants c s c') (hu : Uncut c s) (t : List Char) :
    c.parseIn L (s ++ t) = (true, c', t) := by
  have hparse := hw.parse hu t
  rw [parseIn_eq hL (hw.scan_ok (List.append_nil _)) (.inl (by rw [hparse])), hparse]

/-- **A buffer that ends within the chunk.** -/
theorem Wants.parseIn_part (hL : L.Wide) (hw : Wants c (b ++ b') c')
    (ht : c.trailers.tooLong = false) (hb' : b' ≠ []) (hu : Uncut c b) :
    ∃ c₁, c.parseIn L b = (false, c₁, []) ∧ Wants c₁ b' c' ∧ c₁.trailers.tooLong = false ∧
      c₁.valid = c.valid := by
  obtain ⟨c₁, hparse, hwants, hvalid⟩ := hw.parse_part hb' hu
  have ht₁ : c₁.trailers.tooLong = false := by rw [← hwants.tooLong_eq, hw.tooLong_eq, ht]
  refine ⟨c₁, ?_, hwants, ht₁, hvalid⟩
  rw [parseIn_eq hL (hw.scan_ok (List.append_nil _).symm) (.inr ?_), hparse]
  rw [hparse]
  exact fun hv hlast => hwants.not_over ht₁ hv hlast

end RxChunk

end Camerasp.Http
