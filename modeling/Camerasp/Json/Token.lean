import Mathlib.Data.List.DropRight
import Mathlib.Order.Basic

/-!
# The tokens of a JSON text (`json_reader.cpp`)

A pointer into the document is the rest of the document from there, which is empty at its end;
`getNextChar` gives a NUL then. What the reader makes of a document depends on its `lexemes` only,
the tokens from its start to its end, each with its type and its characters.

Results:
* `readToken_lexeme`, `skipCommentTokens_lexeme`: what the two reads of the source take off the
  lexemes.
* `lexemes_length_le`: there are no more lexemes than characters.
-/

namespace Camerasp.Json

inductive TokenType
  | endOfStream
  | objectBegin
  | objectEnd
  | arrayBegin
  | arrayEnd
  | string
  | number
  | litTrue
  | litFalse
  | litNull
  | arraySeparator
  | memberSeparator
  | comment
  | error
  deriving DecidableEq

structure Token where
  type : TokenType
  start : List Char
  stop : List Char

/-- The characters of a token. -/
def Token.text (t : Token) : List Char := t.start.take (t.start.length - t.stop.length)

/-- A token without its place. -/
structure Lexeme where
  type : TokenType
  text : List Char
  deriving DecidableEq

def Token.lexeme (t : Token) : Lexeme := ⟨t.type, t.text⟩

theorem Token.type_of_lexeme {t : Token} {l : Lexeme} (h : t.lexeme = l) : t.type = l.type :=
  h ▸ rfl

def isBlank (c : Char) : Bool := c = ' ' || c = '\t' || c = '\r' || c = '\n'

def skipSpaces (s : List Char) : List Char := s.dropWhile isBlank

/-- `match`: whether the pattern comes next, and what is left then. -/
def matchText (pattern s : List Char) : Bool × List Char :=
  if pattern.isPrefixOf s then (true, s.drop pattern.length) else (false, s)

def readCStyleComment : List Char → Bool × List Char
  | [] => (false, [])
  | '*' :: '/' :: s => (true, s)
  | _ :: s => readCStyleComment s

def readCppStyleComment : List Char → List Char
  | [] => []
  | '\n' :: s => s
  | '\r' :: '\n' :: s => s
  | '\r' :: s => s
  | _ :: s => readCppStyleComment s

def readComment : List Char → Bool × List Char
  | [] => (false, [])
  | '*' :: s => readCStyleComment s
  | '/' :: s => (true, readCppStyleComment s)
  | _ :: s => (false, s)

def readDigits (s : List Char) : List Char := s.dropWhile Char.isDigit

def readFraction : List Char → List Char
  | '.' :: s => readDigits s
  | s => s

def readSign : List Char → List Char
  | '+' :: s => s
  | '-' :: s => s
  | s => s

def readExponent : List Char → List Char
  | 'e' :: s => readDigits (readSign s)
  | 'E' :: s => readDigits (readSign s)
  | s => s

/-- `readNumber`, after the first character. -/
def readNumber (s : List Char) : List Char := readExponent (readFraction (readDigits s))

def readString : List Char → Bool × List Char
  | [] => (false, [])
  | '"' :: s => (true, s)
  | '\\' :: [] => (false, [])
  | '\\' :: _ :: s => readString s
  | _ :: s => readString s

/-- `if (!ok) token.type_ = tokenError`. -/
def checked (type : TokenType) (r : Bool × List Char) : TokenType × List Char :=
  (if r.1 then type else .error, r.2)

/-- The switch of `readToken`, on the character read and what is left. -/
def readRest (c : Char) (s : List Char) : TokenType × List Char :=
  if c = '{' then (.objectBegin, s)
  else if c = '}' then (.objectEnd, s)
  else if c = '[' then (.arrayBegin, s)
  else if c = ']' then (.arrayEnd, s)
  else if c = '"' then checked .string (readString s)
  else if c = '/' then checked .comment (readComment s)
  else if c.isDigit || c = '-' then (.number, readNumber s)
  else if c = 't' then checked .litTrue (matchText "rue".toList s)
  else if c = 'f' then checked .litFalse (matchText "alse".toList s)
  else if c = 'n' then checked .litNull (matchText "ull".toList s)
  else if c = ',' then (.arraySeparator, s)
  else if c = ':' then (.memberSeparator, s)
  else if c = '\x00' then (.endOfStream, s)
  else (.error, s)

def readToken (s : List Char) : Token :=
  match skipSpaces s with
  | [] => ⟨.endOfStream, [], []⟩
  | c :: s => ⟨(readRest c s).1, c :: s, (readRest c s).2⟩

/-- At most `n` comments are skipped. -/
def skipComments : Nat → List Char → Token
  | 0, s => readToken s
  | n + 1, s =>
    let token := readToken s
    if token.type = .comment then skipComments n token.stop else token

/-- `do readToken(token) while (token.type_ == tokenComment)`. -/
def skipCommentTokens (s : List Char) : Token := skipComments s.length s

/-- The first `n` lexemes. -/
def lexemesUpTo : Nat → List Char → List Lexeme
  | 0, _ => []
  | n + 1, s =>
    if skipSpaces s = [] then []
    else (readToken s).lexeme :: lexemesUpTo n (readToken s).stop

/-- The tokens from here to the end of the document. -/
def lexemes (s : List Char) : List Lexeme := lexemesUpTo s.length s

/-! ## A token takes a character -/

theorem readCStyleComment_suffix (s : List Char) : (readCStyleComment s).2 <:+ s := by
  fun_induction readCStyleComment s with
  | case1 => exact List.suffix_rfl
  | case2 s => exact ⟨['*', '/'], rfl⟩
  | case3 c s _ ih => exact ih.trans (List.suffix_cons c s)

theorem readCppStyleComment_suffix (s : List Char) : readCppStyleComment s <:+ s := by
  fun_induction readCppStyleComment s with
  | case1 => exact List.suffix_rfl
  | case2 s => exact List.suffix_cons '\n' s
  | case3 s => exact ⟨['\r', '\n'], rfl⟩
  | case4 s => exact List.suffix_cons '\r' s
  | case5 c s _ _ _ ih => exact ih.trans (List.suffix_cons c s)

theorem readComment_suffix (s : List Char) : (readComment s).2 <:+ s := by
  unfold readComment
  split
  · exact List.suffix_rfl
  · exact (readCStyleComment_suffix _).trans (List.suffix_cons _ _)
  · exact (readCppStyleComment_suffix _).trans (List.suffix_cons _ _)
  · exact List.suffix_cons _ _

theorem readDigits_suffix (s : List Char) : readDigits s <:+ s := List.dropWhile_suffix _

theorem readNumber_suffix (s : List Char) : readNumber s <:+ s := by
  have hf (s) : readFraction s <:+ s := by
    unfold readFraction
    split
    · exact (readDigits_suffix _).trans (List.suffix_cons _ _)
    · exact List.suffix_rfl
  have hs (s) : readSign s <:+ s := by
    unfold readSign
    split
    · exact List.suffix_cons _ _
    · exact List.suffix_cons _ _
    · exact List.suffix_rfl
  have he (s) : readExponent s <:+ s := by
    unfold readExponent
    split
    · exact (readDigits_suffix _).trans ((hs _).trans (List.suffix_cons _ _))
    · exact (readDigits_suffix _).trans ((hs _).trans (List.suffix_cons _ _))
    · exact List.suffix_rfl
  exact (he _).trans ((hf _).trans (readDigits_suffix s))

theorem readString_suffix (s : List Char) : (readString s).2 <:+ s := by
  fun_induction readString s with
  | case1 => exact List.suffix_rfl
  | case2 s => exact List.suffix_cons '"' s
  | case3 => exact List.nil_suffix
  | case4 c s ih => exact ih.trans ⟨['\\', c], rfl⟩
  | case5 c s _ _ _ ih => exact ih.trans (List.suffix_cons c s)

theorem matchText_suffix (pattern s : List Char) : (matchText pattern s).2 <:+ s := by
  unfold matchText
  split
  · exact List.drop_suffix _ _
  · exact List.suffix_rfl

theorem readRest_suffix (c : Char) (s : List Char) : (readRest c s).2 <:+ s := by
  have hite {p : Prop} [Decidable p] {a b : TokenType × List Char} (ha : a.2 <:+ s)
      (hb : b.2 <:+ s) : (if p then a else b).2 <:+ s := by
    split
    · exact ha
    · exact hb
  unfold readRest
  repeat' apply hite
  all_goals first
    | exact List.suffix_rfl
    | exact readString_suffix s
    | exact readComment_suffix s
    | exact readNumber_suffix s
    | exact matchText_suffix _ s

theorem readRest_arrayEnd_iff {c : Char} {s : List Char} :
    (readRest c s).1 = .arrayEnd ↔ c = ']' := by
  have hite {p : Prop} [Decidable p] {a b : TokenType × List Char}
      (ha : p → a.1 = .arrayEnd → c = ']') (hb : b.1 = .arrayEnd → c = ']') :
      (if p then a else b).1 = .arrayEnd → c = ']' := by
    split
    · exact ha ‹_›
    · exact hb
  have hchecked {type : TokenType} {r : Bool × List Char} (h : type ≠ .arrayEnd) :
      (checked type r).1 ≠ .arrayEnd := by
    unfold checked
    split
    · exact h
    · nofun
  refine ⟨?_, fun h => h ▸ rfl⟩
  unfold readRest
  repeat' apply hite
  all_goals first
    | exact fun h _ => h
    | exact fun _ h => absurd h (hchecked (by simp))
    | simp

theorem skipSpaces_suffix (s : List Char) : skipSpaces s <:+ s := List.dropWhile_suffix _

theorem readToken_end {s : List Char} (h : skipSpaces s = []) :
    readToken s = ⟨.endOfStream, [], []⟩ := by
  simp [readToken, h]

theorem readToken_stop_length {s : List Char} (h : skipSpaces s ≠ []) :
    (readToken s).stop.length < s.length := by
  obtain ⟨c, u, hu⟩ := List.exists_cons_of_ne_nil h
  have hs : (skipSpaces s).length ≤ s.length := (skipSpaces_suffix s).length_le
  have hr : (readRest c u).2.length ≤ u.length := (readRest_suffix c u).length_le
  simp only [readToken, hu] at hs ⊢
  exact lt_of_le_of_lt hr hs

theorem skipSpaces_skipSpaces (s : List Char) : skipSpaces (skipSpaces s) = skipSpaces s :=
  List.dropWhile_idempotent ..

theorem readToken_skipSpaces (s : List Char) : readToken (skipSpaces s) = readToken s := by
  simp only [readToken, skipSpaces_skipSpaces]

/-- A `]` is the next character and the next token alike. -/
theorem head?_skipSpaces_iff {s : List Char} :
    (skipSpaces s).head? = some ']' ↔ (readToken s).type = .arrayEnd := by
  unfold readToken
  split
  · rename_i h
    simp [h]
  · rename_i c u h
    simp [h, readRest_arrayEnd_iff]

/-! ## Lexemes -/

theorem lexemesUpTo_eq {n m : Nat} {s : List Char} (hn : s.length ≤ n) (hm : s.length ≤ m) :
    lexemesUpTo n s = lexemesUpTo m s := by
  induction n generalizing m s with
  | zero =>
    obtain rfl := List.length_eq_zero_iff.mp (Nat.le_zero.mp hn)
    cases m <;> rfl
  | succ n ih =>
    cases m with
    | zero =>
      obtain rfl := List.length_eq_zero_iff.mp (Nat.le_zero.mp hm)
      rfl
    | succ m =>
      unfold lexemesUpTo
      split
      · rfl
      · rename_i hs
        have hlt := readToken_stop_length hs
        rw [ih (Nat.le_of_lt_succ (hlt.trans_le hn)) (Nat.le_of_lt_succ (hlt.trans_le hm))]

theorem lexemes_end {s : List Char} (h : skipSpaces s = []) : lexemes s = [] := by
  unfold lexemes
  cases s.length <;> simp [lexemesUpTo, h]

theorem lexemes_cons {s : List Char} (h : skipSpaces s ≠ []) :
    lexemes s = (readToken s).lexeme :: lexemes (readToken s).stop := by
  have hlt := readToken_stop_length h
  calc lexemes s = lexemesUpTo ((s.length - 1) + 1) s := lexemesUpTo_eq le_rfl (by omega)
    _ = (readToken s).lexeme :: lexemesUpTo (s.length - 1) (readToken s).stop := by
      rw [lexemesUpTo, if_neg h]
    _ = (readToken s).lexeme :: lexemes (readToken s).stop := by
      rw [lexemes, lexemesUpTo_eq (Nat.le_sub_one_of_lt hlt) le_rfl]

theorem lexemes_skipSpaces (s : List Char) : lexemes (skipSpaces s) = lexemes s := by
  by_cases h : skipSpaces s = []
  · rw [lexemes_end h, h]
    rfl
  · rw [lexemes_cons h, lexemes_cons (by rwa [skipSpaces_skipSpaces]), readToken_skipSpaces]

theorem lexemes_eq_nil_iff {s : List Char} : lexemes s = [] ↔ skipSpaces s = [] := by
  refine ⟨fun h => ?_, lexemes_end⟩
  by_contra hs
  simp [lexemes_cons hs] at h

/-- **There are no more lexemes than characters.** -/
theorem lexemes_length_le (s : List Char) : (lexemes s).length ≤ s.length := by
  have h (n : Nat) (s : List Char) : (lexemesUpTo n s).length ≤ n := by
    induction n generalizing s with
    | zero => exact le_rfl
    | succ n ih =>
      unfold lexemesUpTo
      split
      · exact Nat.zero_le _
      · exact Nat.succ_le_succ (ih _)
  exact h _ s

/-- **`readToken` takes the first lexeme.** -/
theorem readToken_lexeme {s : List Char} {t : Lexeme} {ws : List Lexeme}
    (h : lexemes s = t :: ws) : (readToken s).lexeme = t ∧ lexemes (readToken s).stop = ws := by
  have hs : skipSpaces s ≠ [] := by
    intro he
    simp [lexemes_end he] at h
  rw [lexemes_cons hs] at h
  simpa using h

/-- A run of comments. -/
def Comments (c : List Lexeme) : Prop := ∀ t ∈ c, t.type = .comment

theorem Comments.nil : Comments [] := fun _ h => absurd h List.not_mem_nil

theorem exists_comments (w : List Lexeme) : ∃ c r, Comments c ∧ w = c ++ r ∧
    ∀ t ∈ r.head?, t.type ≠ .comment := by
  refine ⟨w.takeWhile (·.type = .comment), w.dropWhile (·.type = .comment), fun t ht => ?_,
    List.takeWhile_append_dropWhile.symm, fun t ht => ?_⟩
  · simpa using List.mem_takeWhile_imp ht
  · simpa [Option.mem_def.mp ht] using List.head?_dropWhile_not (·.type = .comment) w

private theorem skipComments_lexeme {n : Nat} {c : List Lexeme} {t : Lexeme} {ws : List Lexeme}
    (hc : Comments c) (hn : c.length ≤ n) (ht : t.type ≠ .comment) {s : List Char}
    (h : lexemes s = c ++ t :: ws) :
    (skipComments n s).lexeme = t ∧ lexemes (skipComments n s).stop = ws := by
  induction c generalizing n s with
  | nil =>
    obtain ⟨hl, hs⟩ := readToken_lexeme h
    have htype : (readToken s).type ≠ .comment := Token.type_of_lexeme hl ▸ ht
    cases n with
    | zero => exact ⟨hl, hs⟩
    | succ n => simpa [skipComments, htype] using ⟨hl, hs⟩
  | cons d c ih =>
    obtain ⟨hl, hs⟩ := readToken_lexeme h
    have htype : (readToken s).type = .comment :=
      (Token.type_of_lexeme hl).trans (hc d List.mem_cons_self)
    obtain ⟨n, rfl⟩ := Nat.exists_eq_add_of_le' (Nat.one_le_of_lt hn)
    simpa [skipComments, htype] using
      ih (fun t ht => hc t (List.mem_cons_of_mem _ ht)) (Nat.le_of_succ_le_succ hn) hs

/-- **`skipCommentTokens` takes the comments and the lexeme behind them.** -/
theorem skipCommentTokens_lexeme {c : List Lexeme} {t : Lexeme} {ws : List Lexeme}
    (hc : Comments c) (ht : t.type ≠ .comment) {s : List Char} (h : lexemes s = c ++ t :: ws) :
    (skipCommentTokens s).lexeme = t ∧ lexemes (skipCommentTokens s).stop = ws := by
  have hle : c.length ≤ s.length := by
    have := lexemes_length_le s
    rw [h] at this
    simp only [List.length_append, List.length_cons] at this
    omega
  exact skipComments_lexeme hc hle ht h

theorem skipCommentTokens_end {c : List Lexeme} (hc : Comments c) {s : List Char}
    (h : lexemes s = c) : skipCommentTokens s = ⟨.endOfStream, [], []⟩ := by
  have hle : c.length ≤ s.length := h ▸ lexemes_length_le s
  unfold skipCommentTokens
  generalize s.length = n at hle
  induction c generalizing n s with
  | nil =>
    have he := readToken_end (lexemes_eq_nil_iff.mp h)
    cases n <;> simp [skipComments, he]
  | cons d c ih =>
    obtain ⟨hl, hs⟩ := readToken_lexeme h
    have htype : (readToken s).type = .comment :=
      (Token.type_of_lexeme hl).trans (hc d List.mem_cons_self)
    obtain ⟨n, rfl⟩ := Nat.exists_eq_add_of_le' (Nat.one_le_of_lt hle)
    simpa [skipComments, htype] using
      ih (fun t ht => hc t (List.mem_cons_of_mem _ ht)) hs n (Nat.le_of_succ_le_succ hle)

theorem readToken_cases (s : List Char) :
    lexemes s = (readToken s).lexeme :: lexemes (readToken s).stop ∨
      readToken s = ⟨.endOfStream, [], []⟩ := by
  by_cases h : skipSpaces s = []
  · exact .inr (readToken_end h)
  · exact .inl (lexemes_cons h)

theorem skipCommentTokens_cases (s : List Char) :
    (∃ c, Comments c ∧ (skipCommentTokens s).type ≠ .comment ∧
      lexemes s = c ++ (skipCommentTokens s).lexeme :: lexemes (skipCommentTokens s).stop) ∨
      skipCommentTokens s = ⟨.endOfStream, [], []⟩ := by
  obtain ⟨c, r, hc, hs, hr⟩ := exists_comments (lexemes s)
  cases r with
  | nil => exact .inr (skipCommentTokens_end hc (by simpa using hs))
  | cons t r =>
    have ht : t.type ≠ .comment := hr t rfl
    obtain ⟨hl, hrest⟩ := skipCommentTokens_lexeme hc ht hs
    exact .inl ⟨c, hc, Token.type_of_lexeme hl ▸ ht, by rw [hl, hrest, hs]⟩

/-- Where the next token is no comment there is nothing to skip. -/
theorem skipCommentTokens_of_ne {s : List Char} (h : (readToken s).type ≠ .comment) :
    skipCommentTokens s = readToken s := by
  unfold skipCommentTokens
  cases s.length <;> simp [skipComments, h]

end Camerasp.Json
