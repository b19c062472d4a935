import Camerasp.Json.Value
import Camerasp.Json.Token
import Camerasp.Lib.Strtol

/-!
# Reading JSON (`json_reader.cpp`)

`Reader` with the features that `getDOM` asks for: strict mode, with comments. `double`s are what
`toDouble` makes of the text of a number (`istringstream >> value`).

`readValue` counts down the depth that is left where the source counts up to `stackLimit_g`. What a
refused document has already filled in, and the tokens that `recoverFromError` skips, no one looks
at, so that an error here is the end. The comments, which the source keeps beside the values, are
skipped.
-/

namespace Camerasp.Json

open Camerasp.Lib

/-! ## Numbers -/

def maxInt : Nat := 2 ^ 31 - 1

def maxLargestInt : Nat := 2 ^ 63 - 1

def maxLargestUInt : Nat := 2 ^ 64 - 1

/-- The loop of `decodeNumber`, which gives up where the number is no integer up to `max`. -/
def decodeDigits (max : Nat) : Nat → List Char → Option Nat
  | value, [] => some value
  | value, c :: s =>
    if !c.isDigit then none
    else
      let threshold := max / 10
      let digit := c.toNat - '0'.toNat
      if threshold ≤ value ∧ (threshold < value ∨ s ≠ [] ∨ max % 10 < digit) then none
      else decodeDigits max (value * 10 + digit) s

variable {ρ : Type*} (toDouble : List Char → Option ρ)

def decodeNumber (text : List Char) : Option (Value ρ) :=
  let isNegative := text.head? = some '-'
  let maxIntegerValue := if isNegative then maxLargestInt + 1 else maxLargestUInt
  match decodeDigits maxIntegerValue 0 (if isNegative then text.tail else text) with
  | none => (toDouble text).map .real
  | some value =>
    some (if isNegative then .int (-value) else if value ≤ maxInt then .int value else .uint value)

theorem decodeDigits_le {max value n : Nat} {text : List Char} (hv : value ≤ max)
    (h : decodeDigits max value text = some n) : n ≤ max := by
  induction text generalizing value with
  | nil =>
    cases h
    exact hv
  | cons c s ih =>
    unfold decodeDigits at h
    dsimp only at h
    split_ifs at h with hc hmax
    refine ih ?_ h
    have hdigit : c.toNat - '0'.toNat ≤ 9 := by
      simp only [Char.isDigit, Bool.not_eq_true', Bool.not_eq_false, Bool.and_eq_true,
        decide_eq_true_eq] at hc
      have : c.toNat ≤ 57 := hc.2
      have : '0'.toNat = 48 := rfl
      omega
    by_cases hlt : value < max / 10
    · omega
    · have hdigit' : c.toNat - '0'.toNat ≤ max % 10 := by
        by_contra hgt
        exact hmax ⟨not_lt.mp hlt, .inr (.inr (not_le.mp hgt))⟩
      have heq : value ≤ max / 10 := by
        by_contra hgt
        exact hmax ⟨not_lt.mp hlt, .inl (not_le.mp hgt)⟩
      omega

/-- **Every number read is within the limits of its type.** -/
theorem decodeNumber_isNormal {text : List Char} {v : Value ρ}
    (h : decodeNumber toDouble text = some v) : v.IsNormal ∧ v.parts = [] := by
  unfold decodeNumber at h
  dsimp only at h
  split at h
  · obtain ⟨r, -, rfl⟩ := Option.map_eq_some_iff.mp h
    exact ⟨trivial, rfl⟩
  · rename_i n hn
    have hle := decodeDigits_le (Nat.zero_le _) hn
    simp only [Option.some.injEq] at h
    subst h
    refine ⟨?_, by split_ifs <;> rfl⟩
    split_ifs at hle ⊢ with hneg hint
    · simp only [Value.IsNormal, maxLargestInt] at hle ⊢
      omega
    · simp only [Value.IsNormal, maxInt] at hint ⊢
      omega
    · simp only [Value.IsNormal, maxInt, maxLargestUInt] at hint hle ⊢
      omega

/-! ## Strings -/

/-- An error within a string: what is left of the string there. -/
structure Misread where
  message : String
  rest : List Char

def hexDigit (c : Char) : Option Nat :=
  if c.isDigit then some (c.toNat - '0'.toNat)
  else if 'a' ≤ c ∧ c ≤ 'f' then some (c.toNat - 'a'.toNat + 10)
  else if 'A' ≤ c ∧ c ≤ 'F' then some (c.toNat - 'A'.toNat + 10)
  else none

/-- The loop of `decodeUnicodeEscapeSequence`, with `n` digits to go. -/
def decodeHex : Nat → Nat → List Char → Except Misread (Nat × List Char)
  | 0, unicode, s => .ok (unicode, s)
  | _, _, [] => .error ⟨"Bad unicode escape sequence in string: four digits expected.", []⟩
  | n + 1, unicode, c :: s =>
    match hexDigit c with
    | some d => decodeHex n (unicode * 16 + d) s
    | none =>
      .error ⟨"Bad unicode escape sequence in string: hexadecimal digit expected.", s⟩

def decodeUnicodeEscapeSequence (s : List Char) : Except Misread (Nat × List Char) :=
  if s.length < 4 then
    .error ⟨"Bad unicode escape sequence in string: four digits expected.", s⟩
  else decodeHex 4 0 s

/-- The second half of a surrogate pair. -/
def decodeSurrogate (unicode : Nat) (s : List Char) : Except Misread (Nat × List Char) :=
  let expected := "expecting another \\u token to begin the second half of " ++
    "a unicode surrogate pair"
  match s with
  | '\\' :: 'u' :: s => do
    let (surrogatePair, s) ← decodeUnicodeEscapeSequence s
    return (0x10000 + ((unicode &&& 0x3FF) <<< 10) + (surrogatePair &&& 0x3FF), s)
  | '\\' :: _ :: s => .error ⟨expected, s⟩
  | s => .error ⟨expected, s.tail⟩

def decodeUnicodeCodePoint (s : List Char) : Except Misread (Nat × List Char) := do
  let (unicode, s) ← decodeUnicodeEscapeSequence s
  if 0xD800 ≤ unicode ∧ unicode ≤ 0xDBFF then
    if s.length < 6 then
      .error ⟨"additional six characters expected to parse unicode surrogate pair.", s⟩
    else decodeSurrogate unicode s
  else return (unicode, s)

def codePointToUTF8 (cp : Nat) : List Char :=
  if cp ≤ 0x7F then [Char.ofNat cp]
  else if cp ≤ 0x7FF then
    [Char.ofNat (0xC0 ||| (0x1F &&& (cp >>> 6))), Char.ofNat (0x80 ||| (0x3F &&& cp))]
  else if cp ≤ 0xFFFF then
    [Char.ofNat (0xE0 ||| (0xF &&& (cp >>> 12))), Char.ofNat (0x80 ||| (0x3F &&& (cp >>> 6))),
      Char.ofNat (0x80 ||| (0x3F &&& cp))]
  else if cp ≤ 0x10FFFF then
    [Char.ofNat (0xF0 ||| (0x7 &&& (cp >>> 18))), Char.ofNat (0x80 ||| (0x3F &&& (cp >>> 12))),
      Char.ofNat (0x80 ||| (0x3F &&& (cp >>> 6))), Char.ofNat (0x80 ||| (0x3F &&& cp))]
  else []

/-- The escape sequences of one character. -/
def escaped (c : Char) : Option Char :=
  if c = '"' then some '"'
  else if c = '/' then some '/'
  else if c = '\\' then some '\\'
  else if c = 'b' then some '\x08'
  else if c = 'f' then some '\x0c'
  else if c = 'n' then some '\n'
  else if c = 'r' then some '\r'
  else if c = 't' then some '\t'
  else none

/-- The loop of `decodeString`; every round takes a character. -/
def decodeLoop : Nat → List Char → Except Misread (List Char)
  | 0, _ => .ok []
  | _, [] => .ok []
  | n + 1, c :: s =>
    if c = '"' then .ok []
    else if c ≠ '\\' then (decodeLoop n s).map (c :: ·)
    else
      match s with
      | [] => .error ⟨"Empty escape sequence in string", []⟩
      | escape :: s =>
        match escaped escape with
        | some c => (decodeLoop n s).map (c :: ·)
        | none =>
          if escape = 'u' then
            match decodeUnicodeCodePoint s with
            | .ok (unicode, s) => (decodeLoop n s).map (codePointToUTF8 unicode ++ ·)
            | .error e => .error e
          else .error ⟨"Bad escape sequence in string", s⟩

/-- `decodeString`, of a string with its quotes. -/
def decodeString (text : List Char) : Except Misread (List Char) :=
  let s := text.tail.dropLast
  decodeLoop s.length s

/-! ## Values -/

/-- `ErrorInfo`: the message, where its token starts, and where to look for more. -/
structure ErrorInfo where
  message : List Char
  start : List Char
  extra : Option (List Char)

/-- Why no value is read: an error, or the exception for the depth. `fuel` is the end of a loop
that took more rounds than there are characters. -/
inductive Stop
  | error (e : ErrorInfo)
  | stackLimit
  | fuel

/-- `addError`. -/
def addError (message : String) (token : Token) : Stop := .error ⟨message.toList, token.start, none⟩

/-- A value and what is left of the document. -/
abbrev Read (ρ : Type*) := Except Stop (Value ρ × List Char)

def decodeStringToken (token : Token) : Except Stop (List Char) :=
  match decodeString token.text with
  | .ok s => .ok s
  | .error e => .error (.error ⟨e.message.toList, token.start, some (e.rest ++ '"' :: token.stop)⟩)

/-- The loop of `readArray`. -/
def readItems (read : List Char → Read ρ) : Nat → List (Value ρ) → List Char → Read ρ
  | 0, _, _ => .error .fuel
  | n + 1, items, s =>
    match read s with
    | .error e => .error e
    | .ok (v, s) =>
      let token := skipCommentTokens s
      if token.type = .arrayEnd then .ok (.array (items ++ [v]), token.stop)
      else if token.type = .arraySeparator then readItems read n (items ++ [v]) token.stop
      else .error (addError "Missing ',' or ']' in array declaration" token)

def readArray (read : List Char → Read ρ) (s : List Char) : Read ρ :=
  let s := skipSpaces s
  if s.head? = some ']' then .ok (.array [], (readToken s).stop)
  else readItems read (s.length + 1) [] s

/-- The body of `readObject` from the name to the value of a member. -/
def readMember (read : List Char → Read ρ) (tokenName : Token) :
    Except Stop ((List Char × Value ρ) × List Char) :=
  match decodeStringToken tokenName with
  | .error e => .error e
  | .ok name =>
    let colon := readToken tokenName.stop
    if colon.type ≠ .memberSeparator then
      .error (addError "Missing ':' after object member name" colon)
    else
      match read colon.stop with
      | .error e => .error e
      | .ok (value, s) => .ok ((name, value), s)

/-- The loop of `readObject`; `name` is the name of the member before. -/
def readMembers (read : List Char → Read ρ) :
    Nat → List Char → Members ρ → List Char → Read ρ
  | 0, _, _, _ => .error .fuel
  | n + 1, name, members, s =>
    let tokenName := skipCommentTokens s
    if tokenName.type = .objectEnd ∧ name = [] then .ok (.object members, tokenName.stop)
    else if tokenName.type ≠ .string then
      .error (addError "Missing '\x7d' or object member name" tokenName)
    else
      match readMember read tokenName with
      | .error e => .error e
      | .ok (m, s) =>
        let comma := readToken s
        if comma.type ≠ .objectEnd ∧ comma.type ≠ .arraySeparator ∧ comma.type ≠ .comment then
          .error (addError "Missing ',' or '\x7d' in object declaration" comma)
        else
          -- after a comment any token but `}` passes for the separator
          let comma := skipCommentTokens s
          if comma.type = .objectEnd then .ok (.object (members.insert m.1 m.2), comma.stop)
          else readMembers read n m.1 (members.insert m.1 m.2) comma.stop

def readObject (read : List Char → Read ρ) (s : List Char) : Read ρ :=
  readMembers read (s.length + 1) [] [] s

/-- The switch of `readValue`. -/
def readFrom (read : List Char → Read ρ) (token : Token) : Read ρ :=
  match token.type with
  | .objectBegin => readObject read token.stop
  | .arrayBegin => readArray read token.stop
  | .number =>
    match decodeNumber toDouble token.text with
    | some v => .ok (v, token.stop)
    | none => .error (.error ⟨'\'' :: token.text ++ "' is not a number.".toList, token.start, none⟩)
  | .string =>
    match decodeStringToken token with
    | .ok v => .ok (.string v, token.stop)
    | .error e => .error e
  | .litTrue => .ok (.bool true, token.stop)
  | .litFalse => .ok (.bool false, token.stop)
  | .litNull => .ok (.null, token.stop)
  | _ => .error (addError "Syntax error: value, object or array expected." token)

/-- `readValue`, with so many levels left. -/
def readValue : Nat → List Char → Read ρ
  | 0, _ => .error .stackLimit
  | room + 1, s => readFrom toDouble (readValue room) (skipCommentTokens s)

def stackLimit : Nat := 1000

/-! ## Documents -/

/-- Why a document is refused: the errors found, or an exception. -/
inductive Refusal
  | errors (es : List ErrorInfo)
  | stackLimit
  | fuel

/-- The error of the strict mode. -/
def rootError (document : List Char) : ErrorInfo :=
  ⟨"A valid JSON document must be either an array or an object value.".toList, document, none⟩

/-- `isArray() || isObject()` of a root that is refused: it was made one if it had begun so. -/
def opensContainer (document : List Char) : Bool :=
  (skipCommentTokens document).type = .arrayBegin ∨ (skipCommentTokens document).type = .objectBegin

/-- `parse`. What follows the root is not looked at. -/
def parse (document : List Char) : Except Refusal (Value ρ) :=
  match readValue toDouble stackLimit document with
  | .ok (root, _) => if root.isContainer then .ok root else .error (.errors [rootError document])
  | .error (.error e) =>
    .error (.errors (if opensContainer document then [e] else [e, rootError document]))
  | .error .stackLimit => .error .stackLimit
  | .error .fuel => .error .fuel

/-! ## Messages -/

/-- The loop of `getLocationLineAndColumn`, over what comes behind the offset `current`: the line,
from 0 on, and where it starts. -/
def findLine (location : Nat) : Nat → Nat → Nat → List Char → Nat × Nat
  | line, lastLineStart, _, [] => (line, lastLineStart)
  | line, lastLineStart, current, '\r' :: '\n' :: s =>
    if current < location then findLine location (line + 1) (current + 2) (current + 2) s
    else (line, lastLineStart)
  | line, lastLineStart, current, c :: s =>
    if current < location then
      if c = '\r' ∨ c = '\n' then findLine location (line + 1) (current + 1) (current + 1) s
      else findLine location line lastLineStart (current + 1) s
    else (line, lastLineStart)

/-- `getLocationLineAndColumn`, of what is left of the document there. -/
def getLocationLineAndColumn (document rest : List Char) : List Char :=
  let location := document.length - rest.length
  let (line, lastLineStart) := findLine location 0 0 0 document
  "Line ".toList ++ decimalText (line + 1) ++ ", Column ".toList ++
    decimalText ((location : Int) - lastLineStart + 1)

/-- The lines of `getFormattedErrorMessages` for one error. -/
def formatError (document : List Char) (e : ErrorInfo) : List Char :=
  "* ".toList ++ getLocationLineAndColumn document e.start ++ "\n  ".toList ++ e.message ++
    "\n".toList ++
  match e.extra with
  | none => []
  | some extra =>
    "See ".toList ++ getLocationLineAndColumn document extra ++ " for detail.\n".toList

def getFormattedErrorMessages (document : List Char) (es : List ErrorInfo) : List Char :=
  es.flatMap (formatError document)

/-- `getDOM`, of the text of the file; an exception is its message. -/
def getDOM (input : List Char) : Except (List Char) (Value ρ) :=
  if input = [] then .error "Empty input file".toList
  else
    match parse toDouble input with
    | .ok root => .ok root
    | .error (.errors es) =>
      .error ("Failed to parse file: ".toList ++ getFormattedErrorMessages input es)
    | .error .stackLimit => .error "Exceeded stackLimit in readValue().".toList
    | .error .fuel => .error []

end Camerasp.Json
