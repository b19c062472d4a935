import Camerasp.Json.Grammar

/-!
# Writing JSON (`json_writer.cpp`)

`FastWriter` with its defaults. A `double` is written as `ofDouble` says.

Results:
* `valueToQuotedStringN_eq`: the short way to write a string agrees with the long one.
* `writeValue_spec`: what is written has the lexemes of the value.
* `parse_write_iff`: a document without `double`s is read back as it was written exactly where it
  is one that the reader makes.
-/

namespace Camerasp.Json

open Camerasp.Lib

/-! ## Strings -/

def isControlCharacter (c : Char) : Bool := '\x00' < c && c ≤ '\x1f'

def containsControlCharacter0 (s : List Char) : Bool :=
  s.any fun c => isControlCharacter c || c = '\x00'

/-- A digit as `std::hex` and `std::uppercase` write it. -/
def hexText (d : Nat) : Char :=
  if d < 10 then Char.ofNat ('0'.toNat + d) else Char.ofNat ('A'.toNat + (d - 10))

/-- Four digits (`setw(4)`, `setfill('0')`). -/
def hexText4 (n : Nat) : List Char :=
  [hexText (n / 16 ^ 3 % 16), hexText (n / 16 ^ 2 % 16), hexText (n / 16 % 16), hexText (n % 16)]

/-- The switch of `valueToQuotedStringN`. -/
def escape (c : Char) : List Char :=
  if c = '"' then ['\\', '"']
  else if c = '\\' then ['\\', '\\']
  else if c = '\x08' then ['\\', 'b']
  else if c = '\x0c' then ['\\', 'f']
  else if c = '\n' then ['\\', 'n']
  else if c = '\r' then ['\\', 'r']
  else if c = '\t' then ['\\', 't']
  else if isControlCharacter c || c = '\x00' then '\\' :: 'u' :: hexText4 c.toNat
  else [c]

def valueToQuotedStringN (value : List Char) : List Char :=
  if (!value.any fun c => c ∈ ['"', '\\', '\x08', '\x0c', '\n', '\r', '\t']) &&
      !containsControlCharacter0 value then
    '"' :: value ++ ['"']
  else '"' :: value.flatMap escape ++ ['"']

/-! ## Values -/

variable {ρ : Type*} (ofDouble : ρ → List Char)

mutual

def writeValue : Value ρ → List Char
  | .null => "null".toList
  | .int v => decimalText v
  | .uint v => decimalText v
  | .real v => ofDouble v
  | .string v => valueToQuotedStringN v
  | .bool v => if v then "true".toList else "false".toList
  | .array v => '[' :: writeItems true v ++ [']']
  | .object v => '{' :: writeMembers true v ++ ['}']

/-- The loop of `writeValue` over an array. -/
def writeItems : Bool → List (Value ρ) → List Char
  | _, [] => []
  | first, v :: vs => (if first then [] else [',']) ++ writeValue v ++ writeItems false vs

/-- The loop of `writeValue` over an object. -/
def writeMembers : Bool → List (List Char × Value ρ) → List Char
  | _, [] => []
  | first, (name, v) :: ms =>
    (if first then [] else [',']) ++ valueToQuotedStringN name ++ [':'] ++ writeValue v ++
      writeMembers false ms

end

/-- `FastWriter::write`. -/
def write (root : Value ρ) : List Char := writeValue ofDouble root ++ ['\n']

/-! ## Strings are read back -/

theorem escape_of_plain {c : Char} (hc : c ∉ ['"', '\\', '\x08', '\x0c', '\n', '\r', '\t'])
    (hcontrol : (isControlCharacter c || c = '\x00') = false) : escape c = [c] := by
  simp only [List.mem_cons, List.not_mem_nil, or_false, not_or] at hc
  simp [escape, hc, hcontrol]

theorem escape_of_control {c : Char}
    (hc : c ∉ ['"', '\\', '\x08', '\x0c', '\n', '\r', '\t'])
    (hcontrol : (isControlCharacter c || c = '\x00') = true) :
    escape c = '\\' :: 'u' :: hexText4 c.toNat := by
  simp only [List.mem_cons, List.not_mem_nil, or_false, not_or] at hc
  simp only [escape, hc, if_false, hcontrol, if_true]

/-- **The short way to write a string agrees with the long one.** -/
theorem valueToQuotedStringN_eq (value : List Char) :
    valueToQuotedStringN value = '"' :: value.flatMap escape ++ ['"'] := by
  unfold valueToQuotedStringN
  split
  · rename_i h
    simp only [containsControlCharacter0, Bool.and_eq_true, Bool.not_eq_true',
      List.any_eq_false] at h
    obtain ⟨hplain, hcontrol⟩ := h
    have hvalue : value.flatMap escape = value := by
      rw [List.flatMap_congr fun c hc => escape_of_plain (by simpa using hplain c hc)
        (by simpa using hcontrol c hc)]
      exact List.flatMap_singleton' value
    rw [hvalue]
  · rfl

theorem hexDigit_hexText : ∀ d < 16, hexDigit (hexText d) = some d := by decide

theorem hexText_ne : ∀ d < 16, hexText d ≠ '"' ∧ hexText d ≠ '\\' := by decide

theorem decodeHex_hexText4 {n : Nat} (hn : n < 16 ^ 4) (s : List Char) :
    decodeHex 4 0 (hexText4 n ++ s) = .ok (n, s) := by
  have hd (d : Nat) : hexDigit (hexText (d % 16)) = some (d % 16) :=
    hexDigit_hexText _ (Nat.mod_lt d (by omega))
  simp only [hexText4, List.cons_append, List.nil_append, decodeHex, hd, Except.ok.injEq,
    Prod.mk.injEq, and_true]
  omega

theorem decodeUnicodeCodePoint_hexText4 {n : Nat} (hn : n < 0xD800) (s : List Char) :
    decodeUnicodeCodePoint (hexText4 n ++ s) = .ok (n, s) := by
  have hlen : ¬(hexText4 n ++ s).length < 4 := by simp [hexText4]
  have hsurrogate : ¬(0xD800 ≤ n ∧ n ≤ 0xDBFF) := by omega
  unfold decodeUnicodeCodePoint decodeUnicodeEscapeSequence
  rw [if_neg hlen, decodeHex_hexText4 (by omega)]
  simp only [bind, Except.bind, if_neg hsurrogate]
  rfl

theorem codePointToUTF8_toNat {c : Char} (h : c.toNat ≤ 0x7F) : codePointToUTF8 c.toNat = [c] := by
  rw [codePointToUTF8, if_pos h, Char.ofNat_toNat]

/-- One round of `decodeString` undoes what `valueToQuotedStringN` makes of a character. -/
theorem decodeLoop_escape (n : Nat) (c : Char) (s : List Char) :
    decodeLoop (n + 1) (escape c ++ s) = (decodeLoop n s).map (c :: ·) := by
  by_cases hspecial : c ∈ ['"', '\\', '\x08', '\x0c', '\n', '\r', '\t']
  · simp only [List.mem_cons, List.not_mem_nil, or_false] at hspecial
    rcases hspecial with rfl | rfl | rfl | rfl | rfl | rfl | rfl <;> rfl
  · cases hcontrol : isControlCharacter c || c = '\x00' with
    | false =>
      rw [escape_of_plain hspecial hcontrol]
      simp only [List.mem_cons, not_or] at hspecial
      simp [decodeLoop, hspecial]
    | true =>
      have hle : c.toNat ≤ 0x1F := by
        simp only [isControlCharacter, Bool.or_eq_true, Bool.and_eq_true,
          decide_eq_true_eq] at hcontrol
        obtain ⟨-, h⟩ | rfl := hcontrol
        · exact h
        · exact Nat.zero_le _
      have hcode := decodeUnicodeCodePoint_hexText4 (n := c.toNat) (by omega) s
      have hutf := codePointToUTF8_toNat (c := c) (by omega)
      rw [escape_of_control hspecial hcontrol]
      simp [decodeLoop, escaped, hcode, hutf]

theorem decodeLoop_flatMap_escape {n : Nat} {value : List Char} (h : value.length ≤ n) :
    decodeLoop n (value.flatMap escape) = .ok value := by
  induction value generalizing n with
  | nil => cases n <;> rfl
  | cons c value ih =>
    obtain ⟨n, rfl⟩ := Nat.exists_eq_add_of_le' (Nat.one_le_of_lt h)
    rw [List.flatMap_cons, decodeLoop_escape, ih (Nat.le_of_succ_le_succ h)]
    rfl

theorem escape_ne_nil (c : Char) : escape c ≠ [] := by
  unfold escape
  split_ifs <;> simp

/-- **A string is read back as it was written.** -/
theorem decodeString_valueToQuotedStringN (value : List Char) :
    decodeString (valueToQuotedStringN value) = .ok value := by
  have hlen : value.length ≤ (value.flatMap escape).length := by
    induction value with
    | nil => exact le_rfl
    | cons c value ih =>
      have := List.length_pos_iff.mpr (escape_ne_nil c)
      simp only [List.flatMap_cons, List.length_append, List.length_cons]
      omega
  rw [valueToQuotedStringN_eq]
  simpa [decodeString] using decodeLoop_flatMap_escape hlen

theorem readString_hexText4 (n : Nat) (s : List Char) :
    readString (hexText4 n ++ s) = readString s := by
  have hplain (d : Nat) : hexText (d % 16) ≠ '"' ∧ hexText (d % 16) ≠ '\\' :=
    hexText_ne _ (Nat.mod_lt d (by omega))
  simp [hexText4, readString, hplain]

theorem readString_escape (c : Char) (s : List Char) :
    readString (escape c ++ s) = readString s := by
  by_cases hspecial : c ∈ ['"', '\\', '\x08', '\x0c', '\n', '\r', '\t']
  · simp only [List.mem_cons, List.not_mem_nil, or_false] at hspecial
    rcases hspecial with rfl | rfl | rfl | rfl | rfl | rfl | rfl <;> rfl
  · cases hcontrol : isControlCharacter c || c = '\x00' with
    | false =>
      rw [escape_of_plain hspecial hcontrol]
      simp only [List.mem_cons, not_or] at hspecial
      simp [readString, hspecial]
    | true =>
      rw [escape_of_control hspecial hcontrol]
      exact readString_hexText4 c.toNat s

theorem readString_flatMap_escape (value rest : List Char) :
    readString (value.flatMap escape ++ '"' :: rest) = (true, rest) := by
  induction value with
  | nil => rfl
  | cons c value ih => rw [List.flatMap_cons, List.append_assoc, readString_escape, ih]

/-! ## Numbers are read back -/

theorem decodeDigits_eq (max : Nat) (hmax : 10 ≤ max) {value : Nat} {text : List Char}
    (hd : ∀ c ∈ text, c.isDigit) (h : Nat.ofDigitChars 10 text value ≤ max) :
    decodeDigits max value text = some (Nat.ofDigitChars 10 text value) := by
  induction text generalizing value with
  | nil => rfl
  | cons c s ih =>
    rw [Nat.ofDigitChars_cons] at h ⊢
    have hs := ih (fun c hc => hd c (List.mem_cons_of_mem _ hc)) h
    have hge (l : List Char) (n : Nat) : 10 ^ l.length * n ≤ Nat.ofDigitChars 10 l n := by
      rw [Nat.ofDigitChars_eq_ofDigitChars_zero]
      exact Nat.le_add_right _ _
    have hfit : ¬(max / 10 ≤ value ∧
        (max / 10 < value ∨ s ≠ [] ∨ max % 10 < c.toNat - '0'.toNat)) := by
      have hle := (hge s _).trans h
      rintro ⟨hthreshold, hbig | hmore | hdigit⟩
      · have := Nat.le_mul_of_pos_left (10 * value + (c.toNat - '0'.toNat))
          (Nat.pow_pos (n := s.length) (show 0 < 10 by omega))
        omega
      · obtain ⟨d, s, rfl⟩ := List.exists_cons_of_ne_nil hmore
        have := Nat.mul_le_mul_right (10 * value + (c.toNat - '0'.toNat))
          (Nat.le_self_pow (n := s.length + 1) (by omega) 10)
        rw [List.length_cons] at hle
        omega
      · have := Nat.le_mul_of_pos_left (10 * value + (c.toNat - '0'.toNat))
          (Nat.pow_pos (n := s.length) (show 0 < 10 by omega))
        omega
    unfold decodeDigits
    simp only [hd c List.mem_cons_self, Bool.not_true, Bool.false_eq_true, if_false, hfit]
    rw [Nat.mul_comm value 10, hs]

variable (toDouble : List Char → Option ρ)

theorem decodeNumber_decimalText_nat {n : Nat} (h : n < 2 ^ 64) :
    decodeNumber toDouble (decimalText n) =
      some (if n ≤ maxInt then .int n else .uint n) := by
  have htext : decimalText n = Nat.toDigits 10 n := by simp [decimalText]
  obtain ⟨c, t, hc⟩ := List.exists_cons_of_ne_nil (Nat.toDigits_ne_nil (n := n) (b := 10))
  have hdigit : c.isDigit := isDigit_toDigits c (hc ▸ List.mem_cons_self)
  have hminus : ¬(Nat.toDigits 10 n).head? = some '-' := by
    rw [hc, List.head?_cons, Option.some.injEq]
    rintro rfl
    simp at hdigit
  have hdecode : decodeDigits maxLargestUInt 0 (Nat.toDigits 10 n) = some n := by
    have := decodeDigits_eq maxLargestUInt (by decide) (isDigit_toDigits (n := n))
      (show Nat.ofDigitChars 10 _ 0 ≤ _ by
        rw [Nat.ofDigitChars_ten_toDigits, maxLargestUInt]
        omega)
    rwa [Nat.ofDigitChars_ten_toDigits] at this
  rw [htext]
  simp [decodeNumber, hminus, hdecode]

theorem decodeNumber_decimalText_neg {n : Int} (h : n < 0) (hn : -2 ^ 63 ≤ n) :
    decodeNumber toDouble (decimalText n) = some (.int n) := by
  have hdecode : decodeDigits (maxLargestInt + 1) 0 (Nat.toDigits 10 n.natAbs) =
      some n.natAbs := by
    have := decodeDigits_eq (maxLargestInt + 1) (by decide) (isDigit_toDigits (n := n.natAbs))
      (show Nat.ofDigitChars 10 _ 0 ≤ _ by
        rw [Nat.ofDigitChars_ten_toDigits, maxLargestInt]
        omega)
    rwa [Nat.ofDigitChars_ten_toDigits] at this
  simp only [decimalText, h, if_true, decodeNumber, List.head?_cons, List.tail_cons,
    hdecode, Option.some.injEq, Value.int.injEq]
  omega

/-- **A number is read back as it was written**, if it is in its type. -/
theorem decodeNumber_int {n : Int} (h : (Value.int n : Value ρ).IsNormal) :
    decodeNumber toDouble (decimalText n) = some (.int n) := by
  obtain ⟨hl, hu⟩ := h
  obtain hneg | hpos := lt_or_ge n 0
  · exact decodeNumber_decimalText_neg toDouble hneg hl
  · obtain ⟨m, rfl⟩ := Int.eq_ofNat_of_zero_le hpos
    rw [decodeNumber_decimalText_nat toDouble (by omega), if_pos (by rw [maxInt]; omega)]

theorem decodeNumber_uint {n : Nat} (h : (Value.uint n : Value ρ).IsNormal) :
    decodeNumber toDouble (decimalText n) = some (.uint n) := by
  obtain ⟨hl, hu⟩ := h
  rw [decodeNumber_decimalText_nat toDouble hu, if_neg (by rw [maxInt]; omega)]

/-! ## The lexemes of what is written -/

theorem lexemes_of_readRest {c : Char} {s : List Char} (text : List Char) {stop : List Char}
    {type : TokenType} (hb : isBlank c = false) (h : readRest c s = (type, stop))
    (hs : s = text ++ stop) :
    lexemes (c :: s) = ⟨type, c :: text⟩ :: lexemes stop := by
  have hskip : skipSpaces (c :: s) = c :: s := by simp [skipSpaces, hb]
  have hread : readToken (c :: s) = ⟨type, c :: s, stop⟩ := by simp [readToken, hskip, h]
  have htext : (c :: s).take ((c :: s).length - stop.length) = c :: text := by
    subst hs
    simp [Nat.succ_sub]
  rw [lexemes_cons (by simp [hskip]), hread]
  simp only [Token.lexeme, Token.text, htext]

theorem lexemes_string (value rest : List Char) :
    lexemes (valueToQuotedStringN value ++ rest) =
      ⟨.string, valueToQuotedStringN value⟩ :: lexemes rest := by
  rw [valueToQuotedStringN_eq]
  refine lexemes_of_readRest (value.flatMap escape ++ ['"']) rfl ?_ (by simp)
  have := readString_flatMap_escape value rest
  simp [readRest, checked, this]

/-- What the writer puts behind a value. -/
def Delimits (rest : List Char) : Prop :=
  ∃ c u, rest = c :: u ∧ (c = ',' ∨ c = ']' ∨ c = '}' ∨ c = '\n')

theorem readNumber_append {digits rest : List Char} (hd : ∀ c ∈ digits, c.isDigit)
    (hr : Delimits rest) : readNumber (digits ++ rest) = rest := by
  obtain ⟨c, u, rfl, hc⟩ := hr
  have hdigits : readDigits (digits ++ c :: u) = c :: u := by
    unfold readDigits
    rw [List.dropWhile_append_of_pos hd]
    rcases hc with rfl | rfl | rfl | rfl <;> rfl
  unfold readNumber
  rw [hdigits]
  rcases hc with rfl | rfl | rfl | rfl <;> rfl

theorem readRest_of_isDigit {c : Char} (h : c.isDigit) (s : List Char) :
    readRest c s = (.number, readNumber s) := by
  have hne (d : Char) (hd : d.isDigit = false) : c ≠ d := by
    rintro rfl
    simp [hd] at h
  simp [readRest, hne '{' rfl, hne '}' rfl, hne '[' rfl, hne ']' rfl, hne '"' rfl, hne '/' rfl, h]

theorem lexemes_decimalText (n : Int) {rest : List Char} (hr : Delimits rest) :
    lexemes (decimalText n ++ rest) = ⟨.number, decimalText n⟩ :: lexemes rest := by
  unfold decimalText
  split
  · refine lexemes_of_readRest (Nat.toDigits 10 n.natAbs) rfl ?_ rfl
    simp [readRest, readNumber_append isDigit_toDigits hr]
  · obtain ⟨c, t, hc⟩ := List.exists_cons_of_ne_nil (Nat.toDigits_ne_nil (n := n.natAbs) (b := 10))
    have hd : ∀ d ∈ c :: t, d.isDigit := hc ▸ isDigit_toDigits
    have hblank : isBlank c = false := by
      have hne (d : Char) (hd' : d.isDigit = false) : c ≠ d := by
        rintro rfl
        simp [hd'] at hd
      simp [isBlank, hne ' ' rfl, hne '\t' rfl, hne '\r' rfl, hne '\n' rfl]
    rw [hc]
    refine lexemes_of_readRest t hblank ?_ rfl
    rw [List.append_eq, readRest_of_isDigit (hd c List.mem_cons_self),
      readNumber_append (fun d h => hd d (List.mem_cons_of_mem _ h)) hr]

theorem lexemes_null (rest : List Char) :
    lexemes ("null".toList ++ rest) = ⟨.litNull, "null".toList⟩ :: lexemes rest := by
  have h : "null".toList = ['n', 'u', 'l', 'l'] := rfl
  rw [h]
  exact lexemes_of_readRest ['u', 'l', 'l'] rfl rfl rfl

theorem lexemes_true (rest : List Char) :
    lexemes ("true".toList ++ rest) = ⟨.litTrue, "true".toList⟩ :: lexemes rest := by
  have h : "true".toList = ['t', 'r', 'u', 'e'] := rfl
  rw [h]
  exact lexemes_of_readRest ['r', 'u', 'e'] rfl rfl rfl

theorem lexemes_false (rest : List Char) :
    lexemes ("false".toList ++ rest) = ⟨.litFalse, "false".toList⟩ :: lexemes rest := by
  have h : "false".toList = ['f', 'a', 'l', 's', 'e'] := rfl
  rw [h]
  exact lexemes_of_readRest ['a', 'l', 's', 'e'] rfl rfl rfl

/-! ## Values are read back -/

theorem lexemes_punctuation {c : Char} {type : TokenType} (hb : isBlank c = false)
    (h : ∀ s, readRest c s = (type, s)) (rest : List Char) :
    lexemes (c :: rest) = ⟨type, [c]⟩ :: lexemes rest :=
  lexemes_of_readRest [] hb (h rest) rfl

/-- What is written of `v` has lexemes that `P` says stand for it. -/
def Writes (P : Value ρ → List Lexeme → Prop) (v : Value ρ) : Prop :=
  ∀ rest, Delimits rest →
    ∃ w, P v w ∧ lexemes (writeValue ofDouble v ++ rest) = w ++ lexemes rest

section
variable {ofDouble} {P : Value ρ → List Lexeme → Prop}

theorem writeItems_spec {v : Value ρ} {vs : List (Value ρ)}
    (hw : ∀ u ∈ v :: vs, Writes ofDouble P u) (rest : List Char) :
    ∃ w, IsItems P (v :: vs) w ∧
      lexemes (writeItems ofDouble true (v :: vs) ++ ']' :: rest) = w ++ lexemes rest := by
  induction vs generalizing v with
  | nil =>
    obtain ⟨w, hv, hs⟩ := hw v List.mem_cons_self (']' :: rest) ⟨_, _, rfl, by simp⟩
    refine ⟨_, .last ⟨.arrayEnd, [']']⟩ hv .nil rfl, ?_⟩
    rw [lexemes_punctuation rfl (fun _ => rfl) rest] at hs
    simpa [writeItems] using hs
  | cons u vs ih =>
    obtain ⟨ws, hvs, hrest⟩ := ih fun x hx => hw x (List.mem_cons_of_mem _ hx)
    obtain ⟨w, hv, hs⟩ := hw v List.mem_cons_self
      (',' :: (writeItems ofDouble true (u :: vs) ++ ']' :: rest)) ⟨_, _, rfl, by simp⟩
    refine ⟨_, .more ⟨.arraySeparator, [',']⟩ hv .nil rfl hvs, ?_⟩
    rw [lexemes_punctuation rfl (fun _ => rfl), hrest] at hs
    simpa [writeItems] using hs

/-- A member as it is written. -/
theorem writeMember_spec {m : List Char × Value ρ} (hw : Writes ofDouble P m.2)
    (rest : List Char) (hr : Delimits rest) :
    ∃ w, IsMember P m w ∧
      lexemes (valueToQuotedStringN m.1 ++ ':' :: (writeValue ofDouble m.2 ++ rest)) =
        w ++ lexemes rest := by
  obtain ⟨name, v⟩ := m
  obtain ⟨w, hv, hs⟩ := hw rest hr
  refine ⟨_, .mk ⟨.string, valueToQuotedStringN name⟩ ⟨.memberSeparator, [':']⟩ .nil rfl
    (decodeString_valueToQuotedStringN name) rfl hv, ?_⟩
  rw [lexemes_string, lexemes_punctuation rfl (fun _ => rfl), hs]
  rfl

theorem writeMembers_spec (name : List Char) {m : List Char × Value ρ}
    {ms : List (List Char × Value ρ)} (hw : ∀ x ∈ m :: ms, Writes ofDouble P x.2)
    (rest : List Char) :
    ∃ w, IsMembers P name (m :: ms) w ∧
      lexemes (writeMembers ofDouble true (m :: ms) ++ '}' :: rest) = w ++ lexemes rest := by
  induction ms generalizing name m with
  | nil =>
    obtain ⟨w, hm, hs⟩ := writeMember_spec (hw m List.mem_cons_self) ('}' :: rest)
      ⟨_, _, rfl, by simp⟩
    refine ⟨_, .last ⟨.objectEnd, ['}']⟩ hm .nil rfl, ?_⟩
    rw [lexemes_punctuation rfl (fun _ => rfl) rest] at hs
    simpa [writeMembers] using hs
  | cons x ms ih =>
    obtain ⟨ws, hms, hrest⟩ := ih m.1 fun x hx => hw x (List.mem_cons_of_mem _ hx)
    obtain ⟨w, hm, hs⟩ := writeMember_spec (hw m List.mem_cons_self)
      (',' :: (writeMembers ofDouble true (x :: ms) ++ '}' :: rest)) ⟨_, _, rfl, by simp⟩
    refine ⟨_, .more hm (.comma ⟨.arraySeparator, [',']⟩ rfl) hms, ?_⟩
    rw [lexemes_punctuation rfl (fun _ => rfl), hrest] at hs
    simpa [writeMembers] using hs

end

theorem insertAll_eq {members ms : Members ρ} (h : Members.IsSorted (members ++ ms)) :
    insertAll members ms = members ++ ms := by
  induction ms generalizing members with
  | nil => simp [insertAll]
  | cons m ms ih =>
    obtain ⟨-, -, hlt⟩ := List.pairwise_append.mp h
    have hinsert : members.insert m.1 m.2 = members ++ [m] :=
      Members.insert_of_lt fun x hx => hlt x hx m List.mem_cons_self
    calc insertAll members (m :: ms) = insertAll (members ++ [m]) ms := by
          rw [← hinsert]
          rfl
      _ = members ++ m :: ms := by
          rw [ih (by simpa using h)]
          simp

/-- **The lexemes of a value as it is written.** -/
theorem writeValue_spec {n : Nat} {v : Value ρ}
    (h : v.Within Value.IsWritable n) :
    Writes ofDouble (IsValue toDouble n) v := by
  induction n generalizing v with
  | zero => exact h.elim
  | succ n ih =>
    intro rest hr
    obtain ⟨⟨hnormal, hreal⟩, hparts⟩ := h
    -- no comments are written
    suffices ∃ w, IsShape toDouble (IsValue toDouble n) v w ∧
        lexemes (writeValue ofDouble v ++ rest) = w ++ lexemes rest by
      obtain ⟨w, hw, hs⟩ := this
      exact ⟨w, ⟨[], w, .nil, hw, rfl⟩, hs⟩
    cases v with
    | null => exact ⟨_, .null _ rfl, lexemes_null rest⟩
    | int m =>
      exact ⟨_, .number _ rfl (decodeNumber_int toDouble hnormal), lexemes_decimalText m hr⟩
    | uint m =>
      exact ⟨_, .number _ rfl (decodeNumber_uint toDouble hnormal), lexemes_decimalText m hr⟩
    | real r => simp [Value.isReal] at hreal
    | string s =>
      exact ⟨_, .string _ rfl (decodeString_valueToQuotedStringN s), lexemes_string s rest⟩
    | bool b =>
      cases b with
      | true => exact ⟨_, .true _ rfl, lexemes_true rest⟩
      | false => exact ⟨_, .false _ rfl, lexemes_false rest⟩
    | array vs =>
      have hwrite : writeValue ofDouble (.array vs) ++ rest =
          '[' :: (writeItems ofDouble true vs ++ ']' :: rest) := by
        simp [writeValue]
      rw [hwrite, lexemes_punctuation rfl fun _ => rfl]
      cases vs with
      | nil =>
        refine ⟨_, .empty ⟨.arrayBegin, ['[']⟩ ⟨.arrayEnd, [']']⟩ rfl rfl, ?_⟩
        rw [writeItems, List.nil_append, lexemes_punctuation rfl fun _ => rfl]
        rfl
      | cons v vs =>
        obtain ⟨w, hw, hs⟩ := writeItems_spec (fun u hu => ih (hparts u hu)) rest
        exact ⟨_, .array _ rfl hw, by rw [hs]; rfl⟩
    | object ms =>
      have hwrite : writeValue ofDouble (.object ms) ++ rest =
          '{' :: (writeMembers ofDouble true ms ++ '}' :: rest) := by
        simp [writeValue]
      have hms : insertAll [] ms = ms := @insertAll_eq _ [] ms hnormal
      obtain ⟨w, hw, hs⟩ : ∃ w, IsMembers (IsValue toDouble n) [] ms w ∧
          lexemes (writeMembers ofDouble true ms ++ '}' :: rest) = w ++ lexemes rest := by
        cases ms with
        | nil =>
          refine ⟨_, .close ⟨.objectEnd, ['}']⟩ .nil rfl, ?_⟩
          rw [writeMembers, List.nil_append, lexemes_punctuation rfl fun _ => rfl]
          rfl
        | cons m ms =>
          exact writeMembers_spec [] (fun x hx => ih (hparts x.2 (List.mem_map_of_mem hx))) rest
      have hshape := @IsShape.object _ toDouble _ _ _ ⟨.objectBegin, ['{']⟩ rfl hw
      rw [hms] at hshape
      refine ⟨_, hshape, ?_⟩
      rw [hwrite, lexemes_punctuation rfl fun _ => rfl, hs]
      rfl

/-! ## Documents are read back -/

variable {toDouble ofDouble}

/-- A document without `double`s is read back as it was written. -/
theorem parse_write {root : Value ρ} (hroot : root.isContainer)
    (h : root.Within Value.IsWritable stackLimit) :
    parse toDouble (write ofDouble root) = .ok root := by
  obtain ⟨w, hw, hs⟩ := writeValue_spec ofDouble toDouble h ['\n'] ⟨_, _, rfl, by simp⟩
  obtain ⟨s, hread, -⟩ := (readValue_iff stackLimit).complete hw hs
  exact parse_eq_ok_iff.mpr ⟨hroot, s, hread⟩

/-- **A document without `double`s is read back as it was written exactly where it is one that the
reader makes**: an array or an object, at most 1000 deep, with its numbers in their types and the
members of objects in order. -/
theorem parse_write_iff {n : Nat} {root : Value ρ}
    (hreal : root.Within (fun v => v.isReal = false) n) :
    parse toDouble (write ofDouble root) = .ok root ↔
      root.isContainer ∧ root.Within Value.IsNormal stackLimit := by
  refine ⟨fun h => ⟨(parse_eq_ok_iff.mp h).1, parse_within h⟩, fun ⟨hroot, h⟩ => ?_⟩
  exact parse_write hroot ((hreal.and h).imp fun _ h => ⟨h.2, h.1⟩)

/-- An object in an array. -/
def arrayOfOne : Value Nat := .array [.null, .object [(['a'], .int (-5)), (['b', '"'], .string [])]]

theorem parse_write_iff_arrayOfOne :
    parse (fun _ => none) (write (fun _ => []) arrayOfOne) = .ok arrayOfOne := by
  have hreal : arrayOfOne.Within (fun v => v.isReal = false) 3 := by
    simp [arrayOfOne, Value.Within, Value.parts, Value.isReal]
  have hnormal : arrayOfOne.Within Value.IsNormal 3 := by
    simp [arrayOfOne, Value.Within, Value.parts, Value.IsNormal, Members.IsSorted]
    decide
  exact (parse_write_iff hreal).mpr ⟨rfl, hnormal.mono (by decide)⟩

end Camerasp.Json
