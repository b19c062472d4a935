import Mathlib.Logic.Function.Basic
import Camerasp.Lib.Loop
import Camerasp.Lib.Text

/-!
# Reading `name=value` pairs (`parseCmd.cpp`)

`tokenize` alternates between the delimiters `=` and `&` with one offset. A pair with an empty
value has its `&` right at the offset, which the loop takes for no `&` at all: the rest of the query
becomes the value.

Results:
* `tokenize_isSome`: the loop ends on every query, without a position past the end.
* `tokenize_join`: what it makes of pairs that were joined.
* `tokenize_firstValue`: this is the first non-empty value of each name exactly where `Kept`.
-/

namespace Camerasp.Options

open Camerasp.Lib

/-- `std::map<std::string, std::string>`. -/
abbrev StringMap := List Char → Option (List Char)

/-- `insert`: an entry that is there stays. -/
def StringMap.insert (m : StringMap) (name val : List Char) : StringMap :=
  if (m name).isSome then m else Function.update m name (some val)

/-- `lowerCase`. -/
def lowerCase (str : List Char) : List Char := str.map Char.toLower

/-- The locals of `tokenize`. -/
structure Tokens where
  result : StringMap
  offset : Nat
  pos : Option Nat

/-- The branch that ends the loop; a `pos` of `npos` stands for its `break`. -/
def tokenizeLast (query : List Char) (result : StringMap) (name : List Char) (offset : Nat) :
    Option Tokens := do
  let val ← substr query offset query.length
  some ⟨if val.isEmpty then result else result.insert (lowerCase name) val, offset, none⟩

/-- A round from `pos = query.find('&', offset)` on. -/
def tokenizeValue (query : List Char) (result : StringMap) (name : List Char) (offset : Nat) :
    Option Tokens :=
  match find '&' query offset with
  | none => tokenizeLast query result name offset
  | some pos =>
    if pos > offset then do
      let val ← substr query offset (pos - offset)
      some ⟨result.insert (lowerCase name) val, pos + 1, find '=' query (pos + 1)⟩
    else tokenizeLast query result name offset

/-- A round of the loop of `tokenize`. -/
def tokenizeRound (query : List Char) (s : Tokens) : Option Tokens := do
  let pos ← s.pos
  let name ← substr query s.offset (pos - s.offset)
  tokenizeValue query s.result name (pos + 1)

def tokenizeLoop (query : List Char) : Loop Tokens where
  guard s := s.pos.isSome
  body := tokenizeRound query

/-- `tokenize`. -/
def tokenize (query : List Char) : Option StringMap :=
  ((tokenizeLoop query).run query.length ⟨fun _ => none, 0, find '=' query 0⟩).map Tokens.result

/-! ## Every query -/

/-- The offset lies within the query, and `pos` behind it. -/
def Within (query : List Char) (s : Tokens) : Prop :=
  s.offset ≤ query.length ∧ ∀ p, s.pos = some p → s.offset ≤ p ∧ p < query.length

/-- What is left of the query from `pos` on. -/
def left (query : List Char) (s : Tokens) : Nat :=
  match s.pos with
  | none => 0
  | some p => query.length - p

variable {query : List Char} {s : Tokens}

theorem tokenizeLast_within {offset : Nat} (h : offset ≤ query.length) (result : StringMap)
    (name : List Char) :
    ∃ t, tokenizeLast query result name offset = some t ∧ Within query t ∧ left query t = 0 := by
  unfold tokenizeLast
  rw [substr_of_le h]
  exact ⟨_, rfl, ⟨h, fun p hp => nomatch hp⟩, rfl⟩

theorem within_find {offset : Nat} (h : offset ≤ query.length) (result : StringMap) :
    Within query ⟨result, offset, find '=' query offset⟩ :=
  ⟨h, fun _ hp => find_bounds hp⟩

theorem left_find (result : StringMap) (offset : Nat) :
    left query ⟨result, offset, find '=' query offset⟩ ≤ query.length - offset := by
  unfold left
  split
  · exact Nat.zero_le _
  · rename_i p hp
    have hle := (find_bounds hp).1
    omega

theorem tokenizeValue_within {offset : Nat} (h : offset ≤ query.length) (result : StringMap)
    (name : List Char) : ∃ t, tokenizeValue query result name offset = some t ∧ Within query t ∧
      left query t ≤ query.length - offset := by
  have hlast : ∃ t, tokenizeLast query result name offset = some t ∧ Within query t ∧
      left query t ≤ query.length - offset := by
    obtain ⟨t, ht, hw, h0⟩ := tokenizeLast_within h result name
    exact ⟨t, ht, hw, by omega⟩
  unfold tokenizeValue
  split
  · exact hlast
  · rename_i pos hpos
    obtain ⟨hle, hlt⟩ := find_bounds hpos
    split
    · rw [substr_of_le h]
      exact ⟨_, rfl, within_find (by omega) _, Nat.le_trans (left_find _ _) (by omega)⟩
    · exact hlast

/-- **A round stays within the query**, and `pos` moves on. -/
theorem tokenizeRound_within (h : Within query s) (hg : (tokenizeLoop query).guard s = true) :
    ∃ t, (tokenizeLoop query).body s = some t ∧ Within query t ∧ left query t < left query s := by
  obtain ⟨p, hp⟩ := Option.isSome_iff_exists.mp hg
  obtain ⟨-, hlt⟩ := h.2 p hp
  have hleft : left query s = query.length - p := by rw [left, hp]
  obtain ⟨t, ht, hw, hle⟩ := tokenizeValue_within (Nat.succ_le_of_lt hlt) s.result
    ((query.drop s.offset).take (p - s.offset))
  refine ⟨t, ?_, hw, by omega⟩
  simp only [tokenizeLoop, tokenizeRound, hp, substr_of_le h.1, bind, Option.bind_some]
  exact ht

/-- **`tokenize` ends on every query**, without a position past the end. -/
theorem tokenize_isSome (query : List Char) : (tokenize query).isSome := by
  have hstart : Within query ⟨fun _ => none, 0, find '=' query 0⟩ := within_find (Nat.zero_le _) _
  have hleft : left query ⟨fun _ => none, 0, find '=' query 0⟩ ≤ query.length := left_find _ _
  obtain ⟨t, ht, -, -⟩ := Loop.run_total (I := Within query) (v := left query)
    (fun _ h hg => tokenizeRound_within h hg) hstart (n := query.length) hleft
  rw [tokenize, ht]
  rfl

/-! ## Pairs that were joined -/

/-- A pair as an options query has it. -/
structure OptionPair where
  name : List Char
  value : List Char
  name_ne : name ≠ []
  name_eq : '=' ∉ name
  name_amp : '&' ∉ name
  value_amp : '&' ∉ value

def OptionPair.text (p : OptionPair) : List Char := p.name ++ '=' :: p.value

/-- `name1=value1&name2=value2&...` -/
def join : List OptionPair → List Char
  | [] => []
  | [p] => p.text
  | p :: q :: ps => p.text ++ '&' :: join (q :: ps)

/-- The pairs that `tokenize` enters. -/
def entered : List OptionPair → List (List Char × List Char)
  | [] => []
  | [p] => if p.value = [] then [] else [(p.name, p.value)]
  | p :: q :: ps =>
    if p.value = [] then [(p.name, '&' :: join (q :: ps))]
    else (p.name, p.value) :: entered (q :: ps)

/-- The first value for each lower-cased name. -/
def first (ps : List (List Char × List Char)) : StringMap :=
  fun key => (ps.find? fun p => lowerCase p.1 = key).map Prod.snd

theorem insert_first (m : StringMap) (name val : List Char) (ps : List (List Char × List Char)) :
    (fun key => (m.insert (lowerCase name) val key).or (first ps key)) =
      fun key => (m key).or (first ((name, val) :: ps) key) := by
  funext key
  unfold StringMap.insert first
  by_cases hk : lowerCase name = key
  · subst hk
    cases hm : m (lowerCase name) <;> simp [hm]
  · cases hm : m (lowerCase name) <;> simp [hk, Function.update_of_ne (Ne.symm hk)]

/-- The state at the start of a pair, with `a` before it. -/
def atPair (query a : List Char) (result : StringMap) : Tokens :=
  ⟨result, a.length, find '=' query a.length⟩

section Round

variable {a b name rest t v : List Char} {m : StringMap} {offset : Nat}

/-- A query split after the `=`. -/
theorem split_value (hq : query = a ++ (name ++ '=' :: rest)) :
    query = (a ++ name ++ ['=']) ++ rest := by
  simp only [hq, List.append_assoc, List.singleton_append]

theorem tokenizeRound_name (hq : query = a ++ (name ++ '=' :: rest)) (h : '=' ∉ name) :
    tokenizeRound query (atPair query a m) =
      tokenizeValue query m name (a ++ name ++ ['=']).length := by
  have hlen : a.length + name.length + 1 = (a ++ name ++ ['=']).length := by
    simp only [List.length_append, List.length_cons, List.length_nil]
  have hname : substr query a.length (a.length + name.length - a.length) = some name := by
    rw [Nat.add_sub_cancel_left]
    exact substr_part hq rfl
  simp only [tokenizeRound, atPair, find_part hq rfl h, hname, hlen, bind, Option.bind_some]

theorem tokenizeLast_eq (hq : query = b ++ rest) :
    tokenizeLast query m name b.length =
      some ⟨if rest.isEmpty then m else m.insert (lowerCase name) rest, b.length, none⟩ := by
  have hle : b.length ≤ query.length := by
    rw [hq, List.length_append]
    omega
  have hrest : (query.drop b.length).take query.length = rest := by
    rw [hq, List.drop_left]
    exact List.take_of_length_le (by rw [List.length_append]; omega)
  rw [tokenizeLast, substr_of_le hle, hrest]
  rfl

/-- No `&` is left. -/
theorem tokenizeValue_last (hq : query = b ++ rest) (h : '&' ∉ rest) :
    tokenizeValue query m name b.length =
      some ⟨if rest.isEmpty then m else m.insert (lowerCase name) rest, b.length, none⟩ := by
  rw [tokenizeValue, find_npos hq rfl h]
  exact tokenizeLast_eq hq

/-- **An empty value**: the rest of the query becomes the value. -/
theorem tokenizeValue_empty (hq : query = b ++ '&' :: t) :
    tokenizeValue query m name b.length =
      some ⟨m.insert (lowerCase name) ('&' :: t), b.length, none⟩ := by
  have hfind : find '&' query b.length = some b.length :=
    find_part (x := []) hq rfl List.not_mem_nil
  rw [tokenizeValue, hfind]
  simp only [gt_iff_lt, Nat.lt_irrefl, if_false]
  exact tokenizeLast_eq hq

theorem tokenizeValue_pair (hq : query = b ++ (v ++ '&' :: t)) (h : '&' ∉ v) (hv : v ≠ []) :
    tokenizeValue query m name b.length =
      some (atPair query (b ++ v ++ ['&']) (m.insert (lowerCase name) v)) := by
  have hlen : b.length + v.length + 1 = (b ++ v ++ ['&']).length := by
    simp only [List.length_append, List.length_cons, List.length_nil]
  have hlater : b.length + v.length > b.length :=
    Nat.lt_add_of_pos_right (List.length_pos_iff.mpr hv)
  have hval : substr query b.length (b.length + v.length - b.length) = some v := by
    rw [Nat.add_sub_cancel_left]
    exact substr_part hq rfl
  rw [tokenizeValue, find_part hq rfl h]
  simp only [hlater, if_true, hval, hlen, atPair, bind, Option.bind_some]

theorem guard_atPair (hq : query = a ++ (name ++ '=' :: rest)) (h : '=' ∉ name) :
    (tokenizeLoop query).guard (atPair query a m) = true := by
  simp only [tokenizeLoop, atPair, find_part hq rfl h, Option.isSome_some]

/-- A round that ends in the `break`. -/
theorem run_break (hq : query = a ++ (name ++ '=' :: rest)) (h : '=' ∉ name) {r : StringMap}
    (hb : tokenizeValue query m name (a ++ name ++ ['=']).length = some ⟨r, offset, none⟩)
    (n : Nat) :
    (tokenizeLoop query).run (n + 1) (atPair query a m) = some ⟨r, offset, none⟩ := by
  have hbody : (tokenizeLoop query).body (atPair query a m) = some ⟨r, offset, none⟩ :=
    (tokenizeRound_name hq h).trans hb
  rw [Loop.run_round (guard_atPair hq h) hbody, Loop.run_exit rfl]

end Round

theorem insert_or_first (m : StringMap) (name val : List Char) :
    (some (m.insert (lowerCase name) val) : Option StringMap) =
      some fun key => (m key).or (first [(name, val)] key) := by
  rw [← insert_first]
  simp [first]

/-- **The loop enters the pairs one by one**, from any of them on. -/
theorem run_pairs {ps : List OptionPair} {a : List Char} (hq : query = a ++ join ps) {n : Nat}
    (hn : ps.length ≤ n) (m : StringMap) :
    ((tokenizeLoop query).run n (atPair query a m)).map Tokens.result =
      some fun key => (m key).or (first (entered ps) key) := by
  induction ps using join.induct generalizing a n m with
  | case1 =>
    have hfind : find '=' query a.length = none := find_npos hq rfl List.not_mem_nil
    have hg : (tokenizeLoop query).guard (atPair query a m) = false := by
      simp only [tokenizeLoop, atPair, hfind, Option.isSome_none]
    rw [Loop.run_exit hg]
    simp [atPair, entered, first]
  | case2 p =>
    obtain ⟨n, rfl⟩ := Nat.exists_eq_add_of_le' hn
    rw [List.length_singleton,
      run_break hq p.name_eq (tokenizeValue_last (m := m) (split_value hq) p.value_amp)]
    unfold entered
    by_cases hv : p.value = []
    · simp [hv, first]
    · simp only [hv, List.isEmpty_iff, if_false, Option.map_some, insert_or_first]
  | case3 p q ps ih =>
    obtain ⟨n, rfl⟩ := Nat.exists_eq_add_of_le' (Nat.le_trans (Nat.succ_le_succ (Nat.zero_le _)) hn)
    have htext : query = a ++ (p.name ++ '=' :: (p.value ++ '&' :: join (q :: ps))) := by
      simp [hq, join, OptionPair.text]
    have hvalue := split_value htext
    unfold entered
    by_cases hv : p.value = []
    · rw [hv, List.nil_append] at hvalue
      rw [run_break htext p.name_eq (tokenizeValue_empty hvalue), if_pos hv, Option.map_some,
        insert_or_first]
    · have hround := (tokenizeRound_name htext p.name_eq).trans
        (tokenizeValue_pair (m := m) hvalue p.value_amp hv)
      have hnext : query = (a ++ p.name ++ ['='] ++ p.value ++ ['&']) ++ join (q :: ps) := by
        simp [htext]
      rw [Loop.run_round (guard_atPair htext p.name_eq) hround,
        ih hnext (by simpa using hn), if_neg hv, insert_first]

/-- **What `tokenize` makes of joined pairs.** -/
theorem tokenize_join (ps : List OptionPair) : tokenize (join ps) = some (first (entered ps)) := by
  have hlen : ps.length ≤ (join ps).length := by
    induction ps using join.induct with
    | case1 => exact Nat.le_refl 0
    | case2 p =>
      simp only [join, OptionPair.text, List.length_append, List.length_cons, List.length_nil]
      omega
    | case3 p q ps ih =>
      simp only [join, OptionPair.text, List.length_append, List.length_cons] at ih ⊢
      omega
  exact run_pairs (a := []) rfl hlen fun _ => none

/-! ## The first non-empty values -/

/-- The pairs whose value is not empty. -/
def nonEmpty (ps : List OptionPair) : List (List Char × List Char) :=
  (ps.filter fun p => p.value ≠ []).map fun p => (p.name, p.value)

/-- One of the pairs has the name of `p`, up to case. -/
def Repeats (ps : List OptionPair) (p : OptionPair) : Prop :=
  ∃ q ∈ ps, lowerCase q.name = lowerCase p.name

/-- Where an empty value has the rest of the query taken for it, nothing is lost or wrong: the name
has its value already, and so has every later name with a value. -/
def Kept (ps : List OptionPair) : Prop :=
  ∀ pre p rest, ps = pre ++ p :: rest → (∀ q ∈ pre, q.value ≠ []) → p.value = [] → rest ≠ [] →
    Repeats pre p ∧ ∀ q ∈ rest, q.value ≠ [] → Repeats pre q

theorem first_append (ps qs : List (List Char × List Char)) (key : List Char) :
    first (ps ++ qs) key = (first ps key).or (first qs key) := by
  simp [first, List.find?_append, Option.map_or]

theorem first_singleton (name val key : List Char) :
    first [(name, val)] key = if lowerCase name = key then some val else none := by
  by_cases h : lowerCase name = key <;> simp [first, h]

theorem first_eq_none {ps : List (List Char × List Char)} {key : List Char} :
    first ps key = none ↔ ∀ p ∈ ps, lowerCase p.1 ≠ key := by
  simp [first]

theorem first_nonEmpty_eq_none {ps : List OptionPair} {key : List Char} :
    first (nonEmpty ps) key = none ↔ ∀ p ∈ ps, p.value ≠ [] → lowerCase p.name ≠ key := by
  rw [first_eq_none, nonEmpty, List.forall_mem_map]
  simp [List.mem_filter]

/-- Pairs with values before the others. -/
theorem entered_append {pre rest : List OptionPair} (h : ∀ q ∈ pre, q.value ≠ [])
    (hr : rest ≠ []) : entered (pre ++ rest) = nonEmpty pre ++ entered rest := by
  induction pre with
  | nil => rfl
  | cons p pre ih =>
    have hp := h p List.mem_cons_self
    have hrest := ih fun q hq => h q (List.mem_cons_of_mem p hq)
    obtain ⟨q, qs, hqs⟩ := List.exists_cons_of_ne_nil (List.append_ne_nil_of_right_ne_nil pre hr)
    rw [List.cons_append, hqs, entered, if_neg hp, ← hqs, hrest]
    simp [nonEmpty, hp]

/-- Every pair is entered, unless one before the last has an empty value. -/
theorem entered_cases (ps : List OptionPair) : entered ps = nonEmpty ps ∨
    ∃ pre p rest, ps = pre ++ p :: rest ∧ (∀ q ∈ pre, q.value ≠ []) ∧ p.value = [] ∧
      rest ≠ [] := by
  induction ps with
  | nil => exact .inl rfl
  | cons p ps ih =>
    by_cases hps : ps = []
    · subst hps
      refine .inl ?_
      by_cases hv : p.value = [] <;> simp [entered, nonEmpty, hv]
    · by_cases hv : p.value = []
      · exact .inr ⟨[], p, ps, rfl, fun _ hq => absurd hq List.not_mem_nil, hv, hps⟩
      · have hp : ∀ q ∈ [p], q.value ≠ [] := fun q hq => by rwa [List.mem_singleton.mp hq]
        rcases ih with ih | ⟨pre, q, rest, rfl, hpre, hq, hrest⟩
        · refine .inl ?_
          have happend := entered_append hp hps
          rw [List.singleton_append] at happend
          rw [happend, ih]
          simp [nonEmpty, hv]
        · exact .inr ⟨p :: pre, q, rest, rfl, List.forall_mem_cons.mpr ⟨hv, hpre⟩, hq, hrest⟩

section Split

variable {pre rest : List OptionPair} {p : OptionPair} (hpre : ∀ q ∈ pre, q.value ≠ [])
  (hp : p.value = []) (hrest : rest ≠ [])

include hpre hp hrest in
theorem first_entered (key : List Char) : first (entered (pre ++ p :: rest)) key =
    (first (nonEmpty pre) key).or (first [(p.name, '&' :: join rest)] key) := by
  obtain ⟨q, qs, rfl⟩ := List.exists_cons_of_ne_nil hrest
  rw [entered_append hpre (List.cons_ne_nil _ _), first_append, entered, if_pos hp]

include hp in
theorem first_nonEmpty (key : List Char) : first (nonEmpty (pre ++ p :: rest)) key =
    (first (nonEmpty pre) key).or (first (nonEmpty rest) key) := by
  rw [← first_append]
  simp [nonEmpty, hp]

theorem not_repeats_iff (hpre : ∀ q ∈ pre, q.value ≠ []) :
    first (nonEmpty pre) (lowerCase p.name) = none ↔ ¬ Repeats pre p := by
  rw [first_nonEmpty_eq_none, Repeats]
  push Not
  exact ⟨fun h q hq => h q hq (hpre q hq), fun h q hq _ => h q hq⟩

end Split

/-- A value that is found is one of the pairs', so it has no `&`. -/
theorem not_mem_of_first {ps : List OptionPair} {key val : List Char}
    (h : first (nonEmpty ps) key = some val) : '&' ∉ val := by
  obtain ⟨r, hr, rfl⟩ := Option.map_eq_some_iff.mp h
  obtain ⟨p, -, rfl⟩ := List.mem_map.mp (List.mem_of_find?_eq_some hr)
  exact p.value_amp

theorem kept_of_eq {ps : List OptionPair} (h : first (entered ps) = first (nonEmpty ps)) :
    Kept ps := by
  rintro pre p rest rfl hpre hp hrest
  have hkey : ∀ key, first (nonEmpty pre) key = none →
      first [(p.name, '&' :: join rest)] key = first (nonEmpty rest) key := by
    intro key hnone
    have heq := congrFun h key
    rwa [first_entered hpre hp hrest, first_nonEmpty hp, hnone, Option.none_or,
      Option.none_or] at heq
  have hrep : Repeats pre p := by
    by_contra hnot
    have hrest := hkey _ ((not_repeats_iff hpre).mpr hnot)
    rw [first_singleton, if_pos rfl] at hrest
    exact not_mem_of_first hrest.symm List.mem_cons_self
  refine ⟨hrep, fun q hq hv => ?_⟩
  by_contra hnot
  have hne : lowerCase p.name ≠ lowerCase q.name := by
    intro heq
    obtain ⟨r, hr, hname⟩ := hrep
    exact hnot ⟨r, hr, hname.trans heq⟩
  have hrest := hkey _ ((not_repeats_iff hpre).mpr hnot)
  rw [first_singleton, if_neg hne] at hrest
  exact first_nonEmpty_eq_none.mp hrest.symm q hq hv rfl

theorem eq_of_kept {ps : List OptionPair} (h : Kept ps) :
    first (entered ps) = first (nonEmpty ps) := by
  rcases entered_cases ps with heq | ⟨pre, p, rest, rfl, hpre, hp, hrest⟩
  · rw [heq]
  · obtain ⟨hrep, hlater⟩ := h pre p rest rfl hpre hp hrest
    have hsome : ∀ q, Repeats pre q → first (nonEmpty pre) (lowerCase q.name) ≠ none :=
      fun q hq hnone => (not_repeats_iff hpre).mp hnone hq
    funext key
    rw [first_entered hpre hp hrest, first_nonEmpty hp]
    cases hkey : first (nonEmpty pre) key with
    | some val => rfl
    | none =>
      have hne : lowerCase p.name ≠ key := by
        rintro rfl
        exact hsome p hrep hkey
      have hnone : first (nonEmpty rest) key = none := by
        refine first_nonEmpty_eq_none.mpr fun q hq hv => ?_
        rintro rfl
        exact hsome q (hlater q hq hv) hkey
      rw [first_singleton, if_neg hne, hnone]

/-- **Of joined pairs `tokenize` keeps the first non-empty value of each name exactly where
`Kept`**; it ends on all of them. -/
theorem tokenize_firstValue (ps : List OptionPair) :
    (tokenize (join ps)).isSome ∧ (tokenize (join ps) = some (first (nonEmpty ps)) ↔ Kept ps) := by
  refine ⟨tokenize_isSome _, ?_⟩
  rw [tokenize_join, Option.some.injEq]
  exact ⟨kept_of_eq, eq_of_kept⟩

/-- `h=&w=67`: the height gets the text of the width, and there is no width. -/
theorem tokenize_empty_first :
    ¬ ∀ ps : List OptionPair, tokenize (join ps) = some (first (nonEmpty ps)) := by
  intro h
  have hw := h [⟨['h'], [], by decide, by decide, by decide, by decide⟩,
    ⟨['w'], ['6', '7'], by decide, by decide, by decide, by decide⟩]
  rw [tokenize_join, Option.some.injEq] at hw
  exact absurd (congrFun hw ['w']) (by decide)

end Camerasp.Options
