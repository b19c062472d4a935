import Mathlib.Data.List.TakeWhile
import Camerasp.Lib.Text
import Camerasp.Http.Server

/-!
# The constructor of `UrlParser`, position by position (`httpEventHandler.cpp`)

`UrlParser.ofUri` cuts a URI at its delimiters. The code computes positions and iterators:
`UrlParser.construct` follows it, and would stop at a position past the end. It is cut in three,
at the start of the path and at the query.

Results:
* `construct_eq`: no URI takes it past the end, and it cuts as `ofUri` does.
* `construct_join`: splitting undoes joining.
-/

namespace Camerasp.Http

open Camerasp.Lib

/-- `++pos`, which takes `npos` to 0. -/
def increment : Option Nat → Nat
  | none => 0
  | some p => p + 1

namespace UrlParser

/-- The constructor once it has its `query`. -/
def constructQuery (command query : List Char) : Option UrlParser :=
  if query.isEmpty then some ⟨command, [], []⟩
  else do
    let pos := find '=' query 0
    let key ← range query 0 (← position query (pos.getD query.length))
    match pos with
    | none => some ⟨command, key, []⟩
    | some p => do
      let value ← range query (← position query (p + 1)) query.length
      some ⟨command, key, value⟩

/-- The constructor once it has its `start`. -/
def constructPath (uri : List Char) (start : Nat) : Option UrlParser := do
  let pos := find '?' uri start
  let fin ← position uri (pos.getD uri.length)
  let command ← range uri start fin
  if fin = uri.length then some ⟨command, [], []⟩
  else
    let pos := find '&' uri (increment pos)
    let fin ← position uri (fin + 1)
    let query ← range uri fin (← position uri (pos.getD uri.length))
    constructQuery command query

/-- The constructor of `UrlParser`; an iterator is its position. -/
def construct (uri : List Char) : Option UrlParser := do
  let start ← position uri (match find '/' uri 0 with | none => 0 | some p => p + 1)
  constructPath uri start

end UrlParser

/-! ## Cutting at a delimiter -/

variable {d : Char} {x t : List Char}

theorem takeWhile_of_not_mem (h : d ∉ x) : x.takeWhile (· ≠ d) = x :=
  List.takeWhile_eq_self_iff.mpr fun _ hc => decide_eq_true (ne_of_mem_of_not_mem hc h)

theorem dropWhile_of_not_mem (h : d ∉ x) : x.dropWhile (· ≠ d) = [] :=
  List.dropWhile_eq_nil_iff.mpr fun _ hc => decide_eq_true (ne_of_mem_of_not_mem hc h)

theorem after_of_not_mem (h : d ∉ x) : after d x = none := by
  rw [after, dropWhile_of_not_mem h]

theorem takeWhile_append_cons (h : d ∉ x) : (x ++ d :: t).takeWhile (· ≠ d) = x := by
  rw [List.takeWhile_append, takeWhile_of_not_mem h]
  simp

theorem after_append_cons (h : d ∉ x) : after d (x ++ d :: t) = some t := by
  rw [after, List.dropWhile_append, dropWhile_of_not_mem h]
  simp

/-! ## The three parts -/

namespace UrlParser

variable {uri a path command query key value rest : List Char} {start : Nat}

theorem constructQuery_noValue (h : '=' ∉ query) :
    constructQuery command query = some ⟨command, query, []⟩ := by
  unfold constructQuery
  split
  · rename_i hempty
    rw [List.isEmpty_iff.mp hempty]
  · have hfind : find '=' query 0 = none := find_nothing h
    have hkey : range query 0 query.length = some query :=
      range_part (a := []) (t := []) (by simp) rfl (by simp)
    simp only [hfind, Option.getD_none, position_of_le (Nat.le_refl _), hkey, bind,
      Option.bind_some]

theorem constructQuery_value (h : '=' ∉ key) :
    constructQuery command (key ++ '=' :: value) = some ⟨command, key, value⟩ := by
  generalize hq : key ++ '=' :: value = query
  have hlen : query.length = key.length + 1 + value.length := by
    rw [← hq, List.length_append, List.length_cons]
    omega
  have hne : query.isEmpty = false := by
    rw [List.isEmpty_eq_false_iff, ← List.length_pos_iff]
    omega
  have hfind : find '=' query 0 = some key.length := hq ▸ find_first h
  have hkey : range query 0 key.length = some key :=
    range_part (a := []) hq.symm rfl (Nat.zero_add _).symm
  have hvalue : range query (key.length + 1) query.length = some value :=
    range_part (a := key ++ ['=']) (t := []) (by simp [← hq]) (by simp) hlen
  unfold constructQuery
  simp only [hne, hfind, Option.getD_some, hkey, hvalue, bind, Option.bind_some, if_false,
    Bool.false_eq_true, position_of_le (n := key.length) (s := query) (by omega),
    position_of_le (n := key.length + 1) (s := query) (by omega)]

/-- **The query** is cut at its first `=`. -/
theorem constructQuery_eq (command query : List Char) : constructQuery command query =
    some ⟨command, query.takeWhile (· ≠ '='), (after '=' query).getD []⟩ := by
  by_cases h : '=' ∈ query
  · obtain ⟨key, value, rfl, hkey⟩ := List.eq_append_cons_of_mem h
    rw [constructQuery_value hkey, takeWhile_append_cons hkey, after_append_cons hkey,
      Option.getD_some]
  · rw [constructQuery_noValue h, takeWhile_of_not_mem h, after_of_not_mem h, Option.getD_none]

/-- A path without a query is the command. -/
theorem constructPath_noQuery (hs : uri = a ++ path) (hn : start = a.length) (h : '?' ∉ path) :
    constructPath uri start = some ⟨path, [], []⟩ := by
  have hfind : find '?' uri start = none := find_npos hs hn h
  have hcommand : range uri start uri.length = some path :=
    range_part (t := []) (by simp [hs]) hn (by simp [hs, hn])
  unfold constructPath
  simp only [hfind, Option.getD_none, position_of_le (Nat.le_refl uri.length), hcommand, bind,
    Option.bind_some, if_true]

/-- What follows the first `?` is a query up to its first `&`. -/
theorem constructPath_query (hs : uri = a ++ (command ++ '?' :: rest)) (hn : start = a.length)
    (h : '?' ∉ command) :
    constructPath uri start = constructQuery command (rest.takeWhile (· ≠ '&')) := by
  have hlen : uri.length = start + command.length + 1 + rest.length := by
    simp only [hs, hn, List.length_append, List.length_cons]
    omega
  have hfind : find '?' uri start = some (start + command.length) := find_part hs hn h
  have hcommand : range uri start (start + command.length) = some command :=
    range_part hs hn rfl
  have hrest : uri = (a ++ command ++ ['?']) ++ rest := by simp [hs]
  have hfin : start + command.length + 1 = (a ++ command ++ ['?']).length := by
    simp only [hn, List.length_append, List.length_cons, List.length_nil]
  have hquery : ∃ last, (find '&' uri (start + command.length + 1)).getD uri.length = last ∧
      last ≤ uri.length ∧
      range uri (start + command.length + 1) last = some (rest.takeWhile (· ≠ '&')) := by
    by_cases hamp : '&' ∈ rest
    · obtain ⟨query, t, rfl, hq⟩ := List.eq_append_cons_of_mem hamp
      rw [find_part hrest hfin hq, takeWhile_append_cons hq]
      refine ⟨_, rfl, ?_, range_part hrest hfin rfl⟩
      simp only [Option.getD_some, hlen, List.length_append]
      omega
    · rw [find_npos hrest hfin hamp, takeWhile_of_not_mem hamp]
      exact ⟨_, rfl, Nat.le_refl _, range_part (t := []) (by simp [hrest]) hfin hlen⟩
  obtain ⟨last, hlast, hle, hq⟩ := hquery
  unfold constructPath
  simp only [hfind, Option.getD_some, increment, hcommand, hlast, hq, bind, Option.bind_some,
    position_of_le hle, position_of_le (n := start + command.length) (s := uri) (by omega),
    position_of_le (n := start + command.length + 1) (s := uri) (by omega),
    show start + command.length ≠ uri.length by omega, if_false]

/-- **No URI takes the constructor past its end**, and it cuts as `ofUri` does. -/
theorem construct_eq (uri : List Char) : construct uri = some (ofUri uri) := by
  have hpath : ∃ a start, uri = a ++ (after '/' uri).getD uri ∧ start = a.length ∧
      (match find '/' uri 0 with | none => 0 | some p => p + 1) = start := by
    by_cases h : '/' ∈ uri
    · obtain ⟨x, t, rfl, hx⟩ := List.eq_append_cons_of_mem h
      refine ⟨x ++ ['/'], x.length + 1, by simp [after_append_cons hx], by simp, ?_⟩
      rw [find_first hx]
    · refine ⟨[], 0, by simp [after_of_not_mem h], rfl, ?_⟩
      rw [find_nothing h]
  obtain ⟨a, start, hs, hn, hstart⟩ := hpath
  have hle : start ≤ uri.length := by
    rw [hs, hn, List.length_append]
    omega
  have hcut : construct uri = constructPath uri start := by
    rw [construct, hstart, position_of_le hle]
    rfl
  unfold ofUri
  rw [hcut]
  generalize (after '/' uri).getD uri = path at hs ⊢
  by_cases h : '?' ∈ path
  · obtain ⟨command, rest, rfl, hc⟩ := List.eq_append_cons_of_mem h
    rw [constructPath_query hs hn hc, constructQuery_eq]
    simp only [takeWhile_append_cons hc, after_append_cons hc]
  · rw [constructPath_noQuery hs hn h]
    simp only [takeWhile_of_not_mem h, after_of_not_mem h]

end UrlParser

/-! ## Joining and splitting -/

section Join

variable {c k v rest : List Char}

theorem ofUri_query (hc : '?' ∉ c) :
    UrlParser.ofUri ('/' :: c ++ '?' :: rest) =
      ⟨c, (rest.takeWhile (· ≠ '&')).takeWhile (· ≠ '='),
        (after '=' (rest.takeWhile (· ≠ '&'))).getD []⟩ := by
  have hpath : after '/' ('/' :: c ++ '?' :: rest) = some (c ++ '?' :: rest) :=
    after_append_cons (x := []) List.not_mem_nil
  simp only [UrlParser.ofUri, hpath, Option.getD_some, takeWhile_append_cons hc,
    after_append_cons hc]

theorem ofUri_value (hc : '?' ∉ c) (hk : '=' ∉ k)
    (hrest : rest.takeWhile (· ≠ '&') = k ++ '=' :: v) :
    UrlParser.ofUri ('/' :: c ++ '?' :: rest) = ⟨c, k, v⟩ := by
  rw [ofUri_query hc, hrest, takeWhile_append_cons hk, after_append_cons hk, Option.getD_some]

theorem ofUri_key (hc : '?' ∉ c) (hk : '=' ∉ k) (hrest : rest.takeWhile (· ≠ '&') = k) :
    UrlParser.ofUri ('/' :: c ++ '?' :: rest) = ⟨c, k, []⟩ := by
  rw [ofUri_query hc, hrest, takeWhile_of_not_mem hk, after_of_not_mem hk, Option.getD_none]

theorem ofUri_command (hc : '?' ∉ c) : UrlParser.ofUri ('/' :: c) = ⟨c, [], []⟩ := by
  have hpath : after '/' ('/' :: c) = some c := after_append_cons (x := []) List.not_mem_nil
  simp only [UrlParser.ofUri, hpath, Option.getD_some, takeWhile_of_not_mem hc,
    after_of_not_mem hc]

end Join

open UrlParser (construct)

/-- **The constructor ends on every URI, and splitting undoes joining.** -/
theorem construct_join :
    (∀ uri, (construct uri).isSome) ∧
    ∀ c k v t : List Char, '?' ∉ c → '=' ∉ k → '&' ∉ k → '&' ∉ v →
      construct ('/' :: c ++ '?' :: k ++ '=' :: v) = some ⟨c, k, v⟩ ∧
      construct ('/' :: c ++ '?' :: k ++ '=' :: v ++ '&' :: t) = some ⟨c, k, v⟩ ∧
      (k ≠ [] →
        construct ('/' :: c ++ '?' :: k) = some ⟨c, k, []⟩ ∧
        construct ('/' :: c ++ '?' :: k ++ '&' :: t) = some ⟨c, k, []⟩) ∧
      construct ('/' :: c) = some ⟨c, [], []⟩ := by
  constructor
  · intro uri
    rw [UrlParser.construct_eq]
    rfl
  · intro c k v t hc hk hka hv
    have hpair : '&' ∉ k ++ '=' :: v := by simp [hka, hv]
    simp only [UrlParser.construct_eq, List.append_assoc, List.cons_append]
    refine ⟨?_, ?_, fun _ => ⟨?_, ?_⟩, ?_⟩
    · exact congrArg some (ofUri_value hc hk (takeWhile_of_not_mem hpair))
    · have hrest := takeWhile_append_cons (t := t) hpair
      rw [List.append_assoc] at hrest
      exact congrArg some (ofUri_value hc hk hrest)
    · exact congrArg some (ofUri_key hc hk (takeWhile_of_not_mem hka))
    · exact congrArg some (ofUri_key hc hk (takeWhile_append_cons hka))
    · exact congrArg some (ofUri_command hc)

/-- The URI of the page, with a tail. -/
theorem construct_join_prev :
    construct "/img.jpg?prev=3&t=1".toList =
      some ⟨"img.jpg".toList, "prev".toList, "3".toList⟩ :=
  (construct_join.2 "img.jpg".toList "prev".toList "3".toList "t=1".toList (by decide) (by decide)
    (by decide) (by decide)).2.1

end Camerasp.Http
