import Camerasp.Json.Reader

/-!
# What the JSON reader accepts

`IsValue n v w`: the lexemes `w` stand for the value `v`, which is at most `n` deep, where one
without parts is one level. The grammar is JSON with comments, except that

* no comment stands before the colon of a member, nor in an array without items;
* behind a member with an empty name the object may end with `,}`;
* behind a comment that follows a member, any token but `}` stands for the comma.

Where two members have one name, the second counts.

Results:
* `readValue_iff`: the reader reads a value from a text exactly where the lexemes of the text begin
  with lexemes of it.
* `parse_iff`: a document is accepted, with the root `v`, exactly where its lexemes begin with those
  of an array or an object `v` at most 1000 deep.
* `readValue_fuel`, `parse_fuel`: no loop of the reader runs out of rounds.
-/

namespace Camerasp.Json

variable {ρ : Type*}

/-! ## The grammar -/

/-- The items of an array and the bracket behind them. -/
inductive IsItems (P : Value ρ → List Lexeme → Prop) : List (Value ρ) → List Lexeme → Prop
  | last {v w c} (stop : Lexeme) (item : P v w) (comments : Comments c)
      (close : stop.type = .arrayEnd) : IsItems P [v] (w ++ c ++ [stop])
  | more {v w c vs ws} (sep : Lexeme) (item : P v w) (comments : Comments c)
      (comma : sep.type = .arraySeparator) (items : IsItems P vs ws) :
    IsItems P (v :: vs) (w ++ c ++ sep :: ws)

/-- A member of an object: its name and its value. -/
inductive IsMember (P : Value ρ → List Lexeme → Prop) :
    List Char × Value ρ → List Lexeme → Prop
  | mk {c key v w} (name colon : Lexeme) (comments : Comments c) (string : name.type = .string)
      (decoded : decodeString name.text = .ok key) (sep : colon.type = .memberSeparator)
      (value : P v w) :
    IsMember P (key, v) (c ++ name :: colon :: w)

/-- What separates two members. -/
inductive IsSeparator : List Lexeme → Prop
  | comma (sep : Lexeme) (type : sep.type = .arraySeparator) : IsSeparator [sep]
  | comments {c} (sep : Lexeme) (comments : Comments c) (some : c ≠ [])
      (other : sep.type ≠ .comment) (notEnd : sep.type ≠ .objectEnd) : IsSeparator (c ++ [sep])

/-- The members of an object behind one with the name `name`, and the brace behind them. -/
inductive IsMembers (P : Value ρ → List Lexeme → Prop) :
    List Char → List (List Char × Value ρ) → List Lexeme → Prop
  | close {c} (stop : Lexeme) (comments : Comments c) (brace : stop.type = .objectEnd) :
    IsMembers P [] [] (c ++ [stop])
  | last {name m w c} (stop : Lexeme) (member : IsMember P m w) (comments : Comments c)
      (brace : stop.type = .objectEnd) : IsMembers P name [m] (w ++ c ++ [stop])
  | more {name m w sep ms ws} (member : IsMember P m w) (comma : IsSeparator sep)
      (members : IsMembers P m.1 ms ws) : IsMembers P name (m :: ms) (w ++ sep ++ ws)

/-- The members one after another. -/
def insertAll (members : Members ρ) (ms : List (List Char × Value ρ)) : Members ρ :=
  ms.foldl (fun members m => members.insert m.1 m.2) members

variable (toDouble : List Char → Option ρ)

/-- A value whose parts are as `P` says, without comments before it. -/
inductive IsShape (P : Value ρ → List Lexeme → Prop) : Value ρ → List Lexeme → Prop
  | null (t : Lexeme) (type : t.type = .litNull) : IsShape P .null [t]
  | true (t : Lexeme) (type : t.type = .litTrue) : IsShape P (.bool true) [t]
  | false (t : Lexeme) (type : t.type = .litFalse) : IsShape P (.bool false) [t]
  | number {v} (t : Lexeme) (type : t.type = .number)
      (decoded : decodeNumber toDouble t.text = some v) : IsShape P v [t]
  | string {s} (t : Lexeme) (type : t.type = .string) (decoded : decodeString t.text = .ok s) :
    IsShape P (.string s) [t]
  | empty (t stop : Lexeme) (type : t.type = .arrayBegin) (close : stop.type = .arrayEnd) :
    IsShape P (.array []) [t, stop]
  | array {vs w} (t : Lexeme) (type : t.type = .arrayBegin) (items : IsItems P vs w) :
    IsShape P (.array vs) (t :: w)
  | object {ms w} (t : Lexeme) (type : t.type = .objectBegin) (members : IsMembers P [] ms w) :
    IsShape P (.object (insertAll [] ms)) (t :: w)

/-- The lexemes of a value that is at most so deep. -/
def IsValue : Nat → Value ρ → List Lexeme → Prop
  | 0, _, _ => False
  | n + 1, v, w => ∃ c u, Comments c ∧ IsShape toDouble (IsValue n) v u ∧ w = c ++ u

/-! ## Reading along the grammar -/

/-- `read` reads what `P` says off the lexemes. -/
def Reads (read : List Char → Read ρ) (P : Value ρ → List Lexeme → Prop) : Prop :=
  ∀ s v r, (∃ s', read s = .ok (v, s') ∧ lexemes s' = r) ↔ ∃ w, P v w ∧ lexemes s = w ++ r

section
variable {read : List Char → Read ρ} {P : Value ρ → List Lexeme → Prop}

theorem Reads.sound (hr : Reads read P) {s s' : List Char} {v : Value ρ}
    (h : read s = .ok (v, s')) : ∃ w, P v w ∧ lexemes s = w ++ lexemes s' :=
  (hr s v _).mp ⟨s', h, rfl⟩

theorem Reads.complete (hr : Reads read P) {s : List Char} {v : Value ρ} {w r : List Lexeme}
    (hv : P v w) (h : lexemes s = w ++ r) : ∃ s', read s = .ok (v, s') ∧ lexemes s' = r :=
  (hr s v r).mpr ⟨w, hv, h⟩

/-! ### Arrays -/

theorem readItems_sound (hr : Reads read P) {n : Nat} {items : List (Value ρ)}
    {s s' : List Char} {v : Value ρ} (h : readItems read n items s = .ok (v, s')) :
    ∃ vs w, v = .array (items ++ vs) ∧ IsItems P vs w ∧ lexemes s = w ++ lexemes s' := by
  induction n generalizing items s with
  | zero => simp [readItems] at h
  | succ n ih =>
    unfold readItems at h
    split at h
    · cases h
    · rename_i u s₁ hread
      obtain ⟨w, hu, hs⟩ := hr.sound hread
      obtain ⟨c, hc, -, hs₁⟩ | hend := skipCommentTokens_cases s₁
      · dsimp only at h
        split_ifs at h with hclose hcomma
        · simp only [Except.ok.injEq, Prod.mk.injEq] at h
          obtain ⟨rfl, rfl⟩ := h
          refine ⟨[u], _, rfl, .last (skipCommentTokens s₁).lexeme hu hc hclose, ?_⟩
          rw [hs, hs₁]
          simp
        · obtain ⟨vs, ws, rfl, hvs, hrest⟩ := ih h
          refine ⟨u :: vs, _, by simp,
            .more (skipCommentTokens s₁).lexeme hu hc hcomma hvs, ?_⟩
          rw [hs, hs₁, hrest]
          simp
      · simp [hend] at h

theorem readItems_complete (hr : Reads read P) {vs : List (Value ρ)} {w : List Lexeme}
    (h : IsItems P vs w) {n : Nat} (hn : w.length < n) (items : List (Value ρ)) {s : List Char}
    {r : List Lexeme} (hs : lexemes s = w ++ r) :
    ∃ s', readItems read n items s = .ok (.array (items ++ vs), s') ∧ lexemes s' = r := by
  induction h generalizing n items s with
  | last stop item comments close =>
    obtain ⟨n, rfl⟩ := Nat.exists_eq_add_of_le' (Nat.one_le_of_lt hn)
    obtain ⟨s₁, hread, hs₁⟩ := hr.complete item (by simpa using hs)
    have ht : stop.type ≠ .comment := by simp [close]
    obtain ⟨hl, hstop⟩ := skipCommentTokens_lexeme comments ht hs₁
    have htype : (skipCommentTokens s₁).type = .arrayEnd := (Token.type_of_lexeme hl).trans close
    exact ⟨_, by simp [readItems, hread, htype], hstop⟩
  | @more v w c vs ws sep item comments comma _ ih =>
    obtain ⟨n, rfl⟩ := Nat.exists_eq_add_of_le' (Nat.one_le_of_lt hn)
    obtain ⟨s₁, hread, hs₁⟩ := hr.complete item (by simpa using hs)
    have ht : sep.type ≠ .comment := by simp [comma]
    obtain ⟨hl, hstop⟩ := skipCommentTokens_lexeme comments ht hs₁
    have htype : (skipCommentTokens s₁).type = .arraySeparator :=
      (Token.type_of_lexeme hl).trans comma
    have hlt : ws.length < n := by
      simp only [List.length_append, List.length_cons] at hn
      omega
    obtain ⟨s', hs', hrest⟩ := ih hlt (items ++ [v]) hstop
    exact ⟨s', by simp [readItems, hread, htype, hs'], hrest⟩

theorem readArray_sound (hr : Reads read P) {s s' : List Char} {v : Value ρ}
    (h : readArray read s = .ok (v, s')) :
    (∃ stop, v = .array [] ∧ stop.type = .arrayEnd ∧ lexemes s = stop :: lexemes s') ∨
      ∃ vs w, v = .array vs ∧ IsItems P vs w ∧ lexemes s = w ++ lexemes s' := by
  unfold readArray at h
  dsimp only at h
  split_ifs at h with hclose
  · simp only [Except.ok.injEq, Prod.mk.injEq, readToken_skipSpaces] at h
    obtain ⟨rfl, rfl⟩ := h
    rw [head?_skipSpaces_iff] at hclose
    obtain hs | hend := readToken_cases s
    · exact .inl ⟨_, rfl, hclose, hs⟩
    · simp [hend] at hclose
  · rw [← lexemes_skipSpaces s]
    exact .inr (readItems_sound hr h)

theorem readArray_empty {s : List Char} {stop : Lexeme} {r : List Lexeme}
    (ht : stop.type = .arrayEnd) (hs : lexemes s = stop :: r) :
    ∃ s', readArray read s = .ok (.array [], s') ∧ lexemes s' = r := by
  obtain ⟨hl, hrest⟩ := readToken_lexeme hs
  have hclose := head?_skipSpaces_iff.mpr ((Token.type_of_lexeme hl).trans ht)
  exact ⟨_, by simp [readArray, hclose, readToken_skipSpaces], hrest⟩

/-- Items do not begin with a bracket that closes. -/
def Opens (P : Value ρ → List Lexeme → Prop) : Prop :=
  ∀ v w, P v w → ∃ t u, w = t :: u ∧ t.type ≠ .arrayEnd

theorem readArray_complete (hr : Reads read P) (ho : Opens P) {vs : List (Value ρ)}
    {w : List Lexeme} (h : IsItems P vs w) {s : List Char} {r : List Lexeme}
    (hs : lexemes s = w ++ r) :
    ∃ s', readArray read s = .ok (.array vs, s') ∧ lexemes s' = r := by
  have hopen : (skipSpaces s).head? ≠ some ']' := by
    obtain ⟨t, u, rfl, ht⟩ : ∃ t u, w = t :: u ∧ t.type ≠ .arrayEnd := by
      cases h with
      | last _ item =>
        obtain ⟨t, u, rfl, ht⟩ := ho _ _ item
        exact ⟨t, _, rfl, ht⟩
      | more _ item =>
        obtain ⟨t, u, rfl, ht⟩ := ho _ _ item
        exact ⟨t, _, rfl, ht⟩
    rw [Ne, head?_skipSpaces_iff, Token.type_of_lexeme (readToken_lexeme hs).1]
    exact ht
  have hlen : w.length < (skipSpaces s).length + 1 := by
    have hle := lexemes_length_le (skipSpaces s)
    rw [lexemes_skipSpaces, hs, List.length_append] at hle
    omega
  obtain ⟨s', hs', hrest⟩ := readItems_complete hr h hlen []
    ((lexemes_skipSpaces s).trans hs)
  exact ⟨s', by simpa [readArray, hopen] using hs', hrest⟩

/-! ### Objects -/

theorem decodeStringToken_iff {t : Token} {s : List Char} :
    decodeStringToken t = .ok s ↔ decodeString t.text = .ok s := by
  unfold decodeStringToken
  cases decodeString t.text <;> simp

theorem readMember_sound (hr : Reads read P) {s s' : List Char} {m : List Char × Value ρ}
    (ht : (skipCommentTokens s).type = .string)
    (h : readMember read (skipCommentTokens s) = .ok (m, s')) :
    ∃ w, IsMember P m w ∧ lexemes s = w ++ lexemes s' := by
  obtain ⟨c, hc, -, hs⟩ | hend := skipCommentTokens_cases s
  · unfold readMember at h
    split at h
    · cases h
    · rename_i name hname
      obtain hcolon | hcolon := readToken_cases (skipCommentTokens s).stop
      · dsimp only at h
        split_ifs at h with hsep
        split at h
        · cases h
        · rename_i v s₁ hread
          obtain ⟨w, hv, hrest⟩ := hr.sound hread
          simp only [Except.ok.injEq, Prod.mk.injEq] at h
          obtain ⟨rfl, rfl⟩ := h
          refine ⟨_, .mk (skipCommentTokens s).lexeme (readToken (skipCommentTokens s).stop).lexeme
            hc ht (decodeStringToken_iff.mp hname) (not_not.mp hsep) hv, ?_⟩
          rw [hs, hcolon, hrest]
          simp
      · simp [hcolon] at h
  · simp [hend] at ht

theorem readMember_complete (hr : Reads read P) {m : List Char × Value ρ} {w : List Lexeme}
    (h : IsMember P m w) {s : List Char} {r : List Lexeme} (hs : lexemes s = w ++ r) :
    (skipCommentTokens s).type = .string ∧
      ∃ s', readMember read (skipCommentTokens s) = .ok (m, s') ∧ lexemes s' = r := by
  obtain @⟨c, key, v, w, name, colon, comments, string, decoded, sep, value⟩ := h
  have ht : name.type ≠ .comment := by simp [string]
  obtain ⟨hl, hstop⟩ := skipCommentTokens_lexeme comments ht (by simpa using hs)
  obtain ⟨hcolon, hrest⟩ := readToken_lexeme hstop
  obtain ⟨s', hread, hs'⟩ := hr.complete value hrest
  have hname : decodeStringToken (skipCommentTokens s) = .ok key :=
    decodeStringToken_iff.mpr (by rwa [← hl] at decoded)
  have htype : (readToken (skipCommentTokens s).stop).type = .memberSeparator :=
    (Token.type_of_lexeme hcolon).trans sep
  exact ⟨(Token.type_of_lexeme hl).trans string, s',
    by simp [readMember, hname, htype, hread], hs'⟩

/-- What the check behind a member lets pass and no brace is a separator. -/
theorem separator_sound {s : List Char}
    (hc : ¬((readToken s).type ≠ .objectEnd ∧ (readToken s).type ≠ .arraySeparator ∧
      (readToken s).type ≠ .comment)) (hne : (skipCommentTokens s).type ≠ .objectEnd) :
    (∃ sep, IsSeparator sep ∧ lexemes s = sep ++ lexemes (skipCommentTokens s).stop) ∨
      skipCommentTokens s = ⟨.endOfStream, [], []⟩ := by
  by_cases hcomment : (readToken s).type = .comment
  · obtain ⟨c, hcs, ht, hs⟩ | hend := skipCommentTokens_cases s
    · refine .inl ⟨c ++ [(skipCommentTokens s).lexeme], .comments _ hcs ?_ ht hne, ?_⟩
      swap
      · simpa using hs
      rintro rfl
      exact ht ((Token.type_of_lexeme (readToken_lexeme hs).1).symm.trans hcomment)
    · exact .inr hend
  · rw [skipCommentTokens_of_ne hcomment] at hne ⊢
    obtain hs | hend := readToken_cases s
    · have hcomma : (readToken s).type = .arraySeparator := by tauto
      exact .inl ⟨_, .comma (readToken s).lexeme hcomma, hs⟩
    · exact .inr hend

theorem separator_complete {sep : List Lexeme} (h : IsSeparator sep) {s : List Char}
    {r : List Lexeme} (hs : lexemes s = sep ++ r) :
    ((readToken s).type = .arraySeparator ∨ (readToken s).type = .comment) ∧
      (skipCommentTokens s).type ≠ .objectEnd ∧ lexemes (skipCommentTokens s).stop = r := by
  cases h with
  | comma t type =>
    obtain ⟨hl, hrest⟩ := readToken_lexeme hs
    have ht := (Token.type_of_lexeme hl).trans type
    rw [skipCommentTokens_of_ne (by simp [ht])]
    exact ⟨.inl ht, by simp [ht], hrest⟩
  | comments t hc some other notEnd =>
    obtain ⟨d, c, rfl⟩ := List.exists_cons_of_ne_nil some
    obtain ⟨hl, -⟩ := readToken_lexeme hs
    obtain ⟨hskip, hrest⟩ := skipCommentTokens_lexeme hc other (by simpa using hs)
    exact ⟨.inr ((Token.type_of_lexeme hl).trans (hc d List.mem_cons_self)),
      Token.type_of_lexeme hskip ▸ notEnd, hrest⟩

theorem IsMember.length_pos {m : List Char × Value ρ} {w : List Lexeme} (h : IsMember P m w) :
    0 < w.length := by
  cases h
  simp only [List.length_append, List.length_cons]
  omega

theorem IsMembers.ne_nil {name : List Char} {ms : List (List Char × Value ρ)} {w : List Lexeme}
    (h : IsMembers P name ms w) : w ≠ [] := by
  cases h with
  | close => simp
  | last => simp
  | more member => simpa using fun h => absurd h (List.length_pos_iff.mp member.length_pos)

theorem readMembers_sound (hr : Reads read P) {n : Nat} {name : List Char} {members : Members ρ}
    {s s' : List Char} {v : Value ρ} (h : readMembers read n name members s = .ok (v, s')) :
    ∃ ms w, v = .object (insertAll members ms) ∧ IsMembers P name ms w ∧
      lexemes s = w ++ lexemes s' := by
  induction n generalizing name members s with
  | zero => simp [readMembers] at h
  | succ n ih =>
    unfold readMembers at h
    dsimp only at h
    split_ifs at h with hclose hname
    · obtain ⟨c, hc, -, hs⟩ | hend := skipCommentTokens_cases s
      · simp only [Except.ok.injEq, Prod.mk.injEq] at h
        obtain ⟨rfl, rfl⟩ := h
        obtain ⟨hbrace, rfl⟩ := hclose
        exact ⟨[], _, rfl, .close (skipCommentTokens s).lexeme hc hbrace, by simpa using hs⟩
      · simp [hend] at hclose
    · split at h
      · cases h
      · rename_i m s₁ hmember
        obtain ⟨w, hm, hs⟩ := readMember_sound hr (not_not.mp hname) hmember
        split_ifs at h with hcomma hbrace
        · obtain ⟨c, hc, -, hs₁⟩ | hend := skipCommentTokens_cases s₁
          · simp only [Except.ok.injEq, Prod.mk.injEq] at h
            obtain ⟨rfl, rfl⟩ := h
            refine ⟨[m], _, rfl, .last (skipCommentTokens s₁).lexeme hm hc hbrace, ?_⟩
            rw [hs, hs₁]
            simp
          · simp [hend] at hbrace
        · obtain ⟨ms, ws, rfl, hms, hrest⟩ := ih h
          obtain ⟨sep, hsep, hs₁⟩ | hend := separator_sound hcomma hbrace
          · refine ⟨m :: ms, _, rfl, .more hm hsep hms, ?_⟩
            rw [hs, hs₁, hrest]
            simp
          · -- behind the end of the document there are no members
            have hnil : ws ++ lexemes s' = [] := by
              rw [← hrest, hend]
              exact lexemes_end rfl
            exact absurd (List.append_eq_nil_iff.mp hnil).1 hms.ne_nil

theorem readMembers_complete (hr : Reads read P) {name : List Char}
    {ms : List (List Char × Value ρ)} {w : List Lexeme} (h : IsMembers P name ms w) {n : Nat}
    (hn : w.length < n) (members : Members ρ) {s : List Char} {r : List Lexeme}
    (hs : lexemes s = w ++ r) :
    ∃ s', readMembers read n name members s = .ok (.object (insertAll members ms), s') ∧
      lexemes s' = r := by
  induction h generalizing n members s with
  | close stop comments brace =>
    obtain ⟨n, rfl⟩ := Nat.exists_eq_add_of_le' (Nat.one_le_of_lt hn)
    have ht : stop.type ≠ .comment := by simp [brace]
    obtain ⟨hl, hrest⟩ := skipCommentTokens_lexeme comments ht (by simpa using hs)
    have htype := (Token.type_of_lexeme hl).trans brace
    exact ⟨_, by simp [readMembers, htype, insertAll], hrest⟩
  | last stop member comments brace =>
    obtain ⟨n, rfl⟩ := Nat.exists_eq_add_of_le' (Nat.one_le_of_lt hn)
    obtain ⟨hstring, s₁, hmember, hs₁⟩ := readMember_complete hr member (by simpa using hs)
    have ht : stop.type ≠ .comment := by simp [brace]
    obtain ⟨hl, hrest⟩ := skipCommentTokens_lexeme comments ht hs₁
    have htype := (Token.type_of_lexeme hl).trans brace
    have hcheck : (readToken s₁).type ≠ .objectEnd → (readToken s₁).type ≠ .arraySeparator →
        (readToken s₁).type = .comment := by
      intro hne _
      by_contra hcomment
      rw [skipCommentTokens_of_ne hcomment] at htype
      exact hne htype
    exact ⟨_, by simp +contextual [readMembers, hstring, hmember, htype, hcheck, insertAll], hrest⟩
  | @more name m w sep ms ws member comma _ ih =>
    obtain ⟨n, rfl⟩ := Nat.exists_eq_add_of_le' (Nat.one_le_of_lt hn)
    obtain ⟨hstring, s₁, hmember, hs₁⟩ := readMember_complete hr member (by simpa using hs)
    obtain ⟨hcheck, hbrace, hrest⟩ := separator_complete comma hs₁
    have hlt : ws.length < n := by
      have := member.length_pos
      simp only [List.length_append] at hn
      omega
    obtain ⟨s', hs', hr'⟩ := ih hlt (members.insert m.1 m.2) hrest
    refine ⟨s', ?_, hr'⟩
    unfold readMembers
    simp only [hstring, hmember, hbrace, reduceCtorEq, false_and, if_false, ne_eq,
      not_true_eq_false]
    rw [if_neg (by tauto)]
    exact hs'

theorem readObject_complete (hr : Reads read P) {ms : List (List Char × Value ρ)}
    {w : List Lexeme} (h : IsMembers P [] ms w) {s : List Char} {r : List Lexeme}
    (hs : lexemes s = w ++ r) :
    ∃ s', readObject read s = .ok (.object (insertAll [] ms), s') ∧ lexemes s' = r := by
  have hlen : w.length < s.length + 1 := by
    have hle := lexemes_length_le s
    rw [hs, List.length_append] at hle
    omega
  exact readMembers_complete hr h hlen [] hs

/-! ### Values -/

variable {toDouble}

theorem readFrom_sound (hr : Reads read P) {t : Token} {s' : List Char} {v : Value ρ}
    (h : readFrom toDouble read t = .ok (v, s')) :
    ∃ u, IsShape toDouble P v (t.lexeme :: u) ∧ lexemes t.stop = u ++ lexemes s' := by
  unfold readFrom at h
  split at h
  · rename_i ht
    obtain ⟨ms, w, rfl, hms, hs⟩ := readMembers_sound hr h
    exact ⟨w, .object _ ht hms, hs⟩
  · rename_i ht
    obtain ⟨stop, rfl, hstop, hs⟩ | ⟨vs, w, rfl, hvs, hs⟩ := readArray_sound hr h
    · exact ⟨[stop], .empty _ stop ht hstop, hs⟩
    · exact ⟨w, .array _ ht hvs, hs⟩
  · rename_i ht
    split at h
    · rename_i v hv
      cases h
      exact ⟨[], .number _ ht hv, rfl⟩
    · cases h
  · rename_i ht
    split at h
    · rename_i v hv
      cases h
      exact ⟨[], .string _ ht (decodeStringToken_iff.mp hv), rfl⟩
    · cases h
  · rename_i ht
    cases h
    exact ⟨[], .true _ ht, rfl⟩
  · rename_i ht
    cases h
    exact ⟨[], .false _ ht, rfl⟩
  · rename_i ht
    cases h
    exact ⟨[], .null _ ht, rfl⟩
  · cases h

theorem readFrom_complete (hr : Reads read P) (ho : Opens P) {v : Value ρ} {t : Token}
    {u r : List Lexeme} (h : IsShape toDouble P v (t.lexeme :: u))
    (hs : lexemes t.stop = u ++ r) :
    ∃ s', readFrom toDouble read t = .ok (v, s') ∧ lexemes s' = r := by
  unfold readFrom
  cases h with
  | null _ type => exact ⟨_, by rw [show t.type = _ from type], hs⟩
  | true _ type => exact ⟨_, by rw [show t.type = _ from type], hs⟩
  | false _ type => exact ⟨_, by rw [show t.type = _ from type], hs⟩
  | number _ type decoded =>
    rw [show t.type = _ from type, show decodeNumber toDouble t.text = _ from decoded]
    exact ⟨_, rfl, hs⟩
  | string _ type decoded =>
    rw [show t.type = _ from type, decodeStringToken_iff.mpr decoded]
    exact ⟨_, rfl, hs⟩
  | empty _ _ type close =>
    rw [show t.type = _ from type]
    exact readArray_empty close hs
  | array _ type items =>
    rw [show t.type = _ from type]
    exact readArray_complete hr ho items hs
  | object _ type members =>
    rw [show t.type = _ from type]
    exact readObject_complete hr members hs

end

variable {toDouble}

/-- The lexeme a shape begins with is neither a comment nor a bracket that closes. -/
theorem IsShape.head {P : Value ρ → List Lexeme → Prop} {v : Value ρ} {u : List Lexeme}
    (h : IsShape toDouble P v u) :
    ∃ t u', u = t :: u' ∧ t.type ≠ .comment ∧ t.type ≠ .arrayEnd := by
  cases h with
  | null _ type => exact ⟨_, _, rfl, by simp [type], by simp [type]⟩
  | true _ type => exact ⟨_, _, rfl, by simp [type], by simp [type]⟩
  | false _ type => exact ⟨_, _, rfl, by simp [type], by simp [type]⟩
  | number _ type => exact ⟨_, _, rfl, by simp [type], by simp [type]⟩
  | string _ type => exact ⟨_, _, rfl, by simp [type], by simp [type]⟩
  | empty _ _ type => exact ⟨_, _, rfl, by simp [type], by simp [type]⟩
  | array _ type => exact ⟨_, _, rfl, by simp [type], by simp [type]⟩
  | object _ type => exact ⟨_, _, rfl, by simp [type], by simp [type]⟩

theorem opens_isValue (n : Nat) : Opens (IsValue toDouble n) := by
  intro v w h
  cases n with
  | zero => exact h.elim
  | succ n =>
    obtain ⟨c, u, hc, hu, rfl⟩ := h
    obtain ⟨t, u', rfl, -, ht⟩ := hu.head
    cases c with
    | nil => exact ⟨t, u', rfl, ht⟩
    | cons d c => exact ⟨d, _, rfl, by simp [hc d List.mem_cons_self]⟩

/-- **The reader reads a value off a text where its lexemes begin with those of the value.** -/
theorem readValue_iff (n : Nat) : Reads (readValue toDouble n) (IsValue toDouble n) := by
  induction n with
  | zero =>
    intro s v r
    simp [readValue, IsValue]
  | succ n ih =>
    intro s v r
    constructor
    · rintro ⟨s', h, rfl⟩
      obtain ⟨c, hc, -, hs⟩ | hend := skipCommentTokens_cases s
      · obtain ⟨u, hu, hrest⟩ := readFrom_sound ih h
        exact ⟨_, ⟨c, _, hc, hu, rfl⟩, by rw [hs, hrest]; simp⟩
      · simp [readValue, readFrom, hend] at h
    · rintro ⟨w, ⟨c, u, hc, hu, rfl⟩, hs⟩
      obtain ⟨t, u', rfl, ht, -⟩ := hu.head
      obtain ⟨rfl, hrest⟩ := skipCommentTokens_lexeme hc ht (by simpa using hs)
      exact readFrom_complete ih (opens_isValue n) hu hrest

/-! ## The rounds of the loops -/

section
variable {read : List Char → Read ρ} {P : Value ρ → List Lexeme → Prop}

theorem readItems_fuel (hr : Reads read P) (hf : ∀ s, read s ≠ .error .fuel) (ho : Opens P)
    {n : Nat} {items : List (Value ρ)} {s : List Char} (hn : (lexemes s).length < n) :
    readItems read n items s ≠ .error .fuel := by
  induction n generalizing items s with
  | zero => exact absurd hn (Nat.not_lt_zero _)
  | succ n ih =>
    unfold readItems
    split
    · rename_i e hread
      rintro ⟨rfl⟩
      exact hf s hread
    · rename_i v s₁ hread
      obtain ⟨w, hv, hs⟩ := hr.sound hread
      dsimp only
      split_ifs with hclose hcomma
      · nofun
      · refine ih ?_
        obtain ⟨t, u, rfl, -⟩ := ho v w hv
        obtain ⟨c, -, -, hs₁⟩ | hend := skipCommentTokens_cases s₁
        · rw [hs, hs₁] at hn
          simp only [List.length_append, List.length_cons] at hn
          omega
        · simp [hend] at hcomma
      · nofun

theorem readMember_fuel (hf : ∀ s, read s ≠ .error .fuel) (t : Token) :
    readMember read t ≠ .error .fuel := by
  unfold readMember decodeStringToken
  cases decodeString t.text with
  | error e => nofun
  | ok name =>
    dsimp only
    split
    · nofun
    · split
      · rename_i e hread
        rintro ⟨rfl⟩
        exact hf _ hread
      · nofun

theorem readMembers_fuel (hr : Reads read P) (hf : ∀ s, read s ≠ .error .fuel) {n : Nat}
    {name : List Char} {members : Members ρ} {s : List Char} (hn : (lexemes s).length < n) :
    readMembers read n name members s ≠ .error .fuel := by
  induction n generalizing name members s with
  | zero => exact absurd hn (Nat.not_lt_zero _)
  | succ n ih =>
    unfold readMembers
    dsimp only
    split_ifs with hclose hname
    · nofun
    · nofun
    · split
      · rename_i e hmember
        rintro ⟨rfl⟩
        exact readMember_fuel hf _ hmember
      · rename_i m s₁ hmember
        obtain ⟨w, hm, hs⟩ := readMember_sound hr (not_not.mp hname) hmember
        split_ifs with hcomma hbrace
        · nofun
        · nofun
        · refine ih ?_
          have hw := hm.length_pos
          rw [hs, List.length_append] at hn
          obtain ⟨sep, -, hs₁⟩ | hend := separator_sound hcomma hbrace
          · rw [hs₁, List.length_append] at hn
            omega
          · rw [hend, lexemes_end rfl, List.length_nil]
            omega

end

/-- **No loop runs out of rounds.** -/
theorem readValue_fuel (n : Nat) (s : List Char) : readValue toDouble n s ≠ .error .fuel := by
  induction n generalizing s with
  | zero => nofun
  | succ n ih =>
    have hr : Reads (readValue toDouble n) (IsValue toDouble n) := readValue_iff n
    have hlen (s : List Char) : (lexemes s).length < s.length + 1 :=
      Nat.lt_succ_of_le (lexemes_length_le s)
    unfold readValue readFrom
    split
    · exact readMembers_fuel hr ih (hlen _)
    · unfold readArray
      dsimp only
      split_ifs
      · nofun
      · exact readItems_fuel hr ih (opens_isValue n) (hlen _)
    · split <;> nofun
    · unfold decodeStringToken
      cases decodeString _ <;> nofun
    all_goals nofun

theorem parse_fuel (document : List Char) : parse toDouble document ≠ .error .fuel := by
  unfold parse
  split
  · split_ifs <;> nofun
  · nofun
  · nofun
  · rename_i h
    exact absurd h (readValue_fuel stackLimit document)

/-! ## Documents -/

theorem parse_eq_ok_iff {document : List Char} {v : Value ρ} :
    parse toDouble document = .ok v ↔
      v.isContainer ∧ ∃ s, readValue toDouble stackLimit document = .ok (v, s) := by
  constructor
  · intro h
    unfold parse at h
    split at h
    · rename_i root s hread
      split_ifs at h with hroot
      cases h
      exact ⟨hroot, s, hread⟩
    all_goals cases h
  · rintro ⟨hroot, s, hread⟩
    simp [parse, hread, hroot]

/-- **What a document has to be like to be accepted.** -/
theorem parse_iff {document : List Char} {v : Value ρ} :
    parse toDouble document = .ok v ↔
      v.isContainer ∧ ∃ w r, lexemes document = w ++ r ∧ IsValue toDouble stackLimit v w := by
  rw [parse_eq_ok_iff]
  refine and_congr_right fun _ => ⟨fun ⟨s, h⟩ => ?_, fun ⟨w, r, hs, hw⟩ => ?_⟩
  · obtain ⟨w, hw, hs⟩ := (readValue_iff stackLimit).sound h
    exact ⟨w, _, hs, hw⟩
  · obtain ⟨s, h, -⟩ := (readValue_iff stackLimit).complete hw hs
    exact ⟨s, h⟩

/-! ## What is accepted -/

section
variable {P : Value ρ → List Lexeme → Prop}

theorem IsItems.parts {vs : List (Value ρ)} {w : List Lexeme} (h : IsItems P vs w) :
    ∀ v ∈ vs, ∃ w, P v w := by
  induction h with
  | last _ item =>
    intro v hv
    exact List.mem_singleton.mp hv ▸ ⟨_, item⟩
  | more _ item _ _ _ ih =>
    intro v hv
    obtain rfl | hv := List.mem_cons.mp hv
    · exact ⟨_, item⟩
    · exact ih v hv

theorem IsMembers.parts {name : List Char} {ms : List (List Char × Value ρ)} {w : List Lexeme}
    (h : IsMembers P name ms w) : ∀ m ∈ ms, ∃ w, P m.2 w := by
  induction h with
  | close => simp
  | last _ member =>
    intro m hm
    cases member with
    | mk _ _ _ _ _ _ value => exact List.mem_singleton.mp hm ▸ ⟨_, value⟩
  | more member _ _ ih =>
    intro m hm
    obtain rfl | hm := List.mem_cons.mp hm
    · cases member with
      | mk _ _ _ _ _ _ value => exact ⟨_, value⟩
    · exact ih m hm

theorem insertAll_isSorted {members : Members ρ} (h : members.IsSorted)
    (ms : List (List Char × Value ρ)) : (insertAll members ms).IsSorted := by
  induction ms generalizing members with
  | nil => exact h
  | cons m ms ih => exact ih h.insert

theorem mem_insertAll {members : Members ρ} {ms : List (List Char × Value ρ)}
    {m : List Char × Value ρ} (h : m ∈ insertAll members ms) : m ∈ members ∨ m ∈ ms := by
  induction ms generalizing members with
  | nil => exact .inl h
  | cons m' ms ih =>
    obtain h | h := ih h
    · obtain rfl | h := Members.mem_insert h
      · exact .inr List.mem_cons_self
      · exact .inl h
    · exact .inr (List.mem_cons_of_mem _ h)

end

/-- **Of members with one name the last counts.** -/
theorem find_insertAll (members : Members ρ) (ms : List (List Char × Value ρ)) (key : List Char) :
    (insertAll members ms).find key =
      ((ms.filter (·.1 = key)).getLast?.map Prod.snd).or (members.find key) := by
  induction ms generalizing members with
  | nil => rfl
  | cons m ms ih =>
    have hcons : insertAll members (m :: ms) = insertAll (members.insert m.1 m.2) ms := rfl
    rw [hcons, ih, Members.find_insert]
    by_cases hm : key = m.1
    · subst hm
      cases hlast : (ms.filter (·.1 = m.1)).getLast? <;> simp [List.getLast?_cons, hlast]
    · simp [Ne.symm hm, hm]

theorem IsValue.within {n : Nat} {v : Value ρ} {w : List Lexeme} (h : IsValue toDouble n v w) :
    v.Within Value.IsNormal n := by
  induction n generalizing v w with
  | zero => exact h
  | succ n ih =>
    obtain ⟨c, u, -, hu, rfl⟩ := h
    cases hu with
    | number _ _ decoded =>
      obtain ⟨hv, hparts⟩ := decodeNumber_isNormal _ decoded
      exact ⟨hv, by simp [hparts]⟩
    | array _ _ items =>
      refine ⟨trivial, fun u hu => ?_⟩
      obtain ⟨w, hw⟩ := items.parts u hu
      exact ih hw
    | object _ _ members =>
      refine ⟨insertAll_isSorted .nil _, fun u hu => ?_⟩
      obtain ⟨m, hm, rfl⟩ := List.mem_map.mp hu
      obtain ⟨w, hw⟩ := members.parts m ((mem_insertAll hm).resolve_left List.not_mem_nil)
      exact ih hw
    | _ => exact ⟨trivial, by simp [Value.parts]⟩

/-- **An accepted document is at most 1000 deep, has its numbers within their limits, and no two
members of an object have one name.** -/
theorem parse_within {document : List Char} {v : Value ρ}
    (h : parse toDouble document = .ok v) : v.Within Value.IsNormal stackLimit := by
  obtain ⟨-, s, hread⟩ := parse_eq_ok_iff.mp h
  obtain ⟨w, hw, -⟩ := (readValue_iff stackLimit).sound hread
  exact hw.within

end Camerasp.Json
