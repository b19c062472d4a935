import Camerasp.Http.Decision

/-!
# One final response for every request

`run_servedOnce_iff`: a well-formed request arrives in packets, in any number and size, while the
callbacks of its connection run one at a time. `b` is the packet with which the receiver decides
about it (`Request.Decided`): the last one, or one with a byte that it refuses. Two kinds of cuts
are left out: before the line end of a field (`parse_cut` in `Headers.lean` says what becomes of
those), and behind a byte that is refused in a field or in a chunk, which the receiver then
overlooks. The request gets exactly one final response, and no byte after its head is taken for the
start of a request, if and only if

* where it is chunked and the receiver goes on to its chunks, it expects 100-continue, and its head
  came in an earlier packet than `b`,
* where it has no host, nothing follows `b` before the response has been written, and
* no write is in progress when `b` comes.

A chunked head that does not expect 100 goes to `Handlers::request`, which answers it and so clears
the receiver while the chunks are still to come. A response given to `send_data` during a write is
dropped. A request without a host is answered, and its connection closed only after the write.
-/

namespace Camerasp.Http

open Server

variable {site : Site}

namespace Server

theorem bytes_append (pre post : List Input) : bytes (pre ++ post) = bytes pre ++ bytes post := by
  induction pre with
  | nil => rfl
  | cons i pre ih =>
    cases i with
    | read b =>
      change b ++ bytes (pre ++ post) = b ++ bytes pre ++ bytes post
      rw [ih, List.append_assoc]
    | written => exact ih

end Server

/-- **The packet with the last element of `v`, and with `w` behind it.** -/
theorem exists_cut {pre b post v w u : List Char} (h : pre ++ (b ++ post) = v ++ (w ++ u))
    (hlt : pre.length < v.length) (hle : v.length + w.length ≤ pre.length + b.length) :
    ∃ s t, s ≠ [] ∧ pre ++ s = v ∧ b = s ++ t ∧ w <+: t := by
  rcases Lib.cut_cases h with ⟨x, rfl, -⟩ | ⟨s, hs, rfl, hrest⟩
  · rw [List.length_append] at hlt
    omega
  · rw [List.length_append] at hle
    rcases Lib.cut_cases hrest with ⟨t, rfl, htail⟩ | ⟨x, hx, rfl, -⟩
    · refine ⟨s, t, hs, rfl, rfl, ?_⟩
      rw [List.length_append] at hle
      exact List.prefix_of_prefix_length_le ⟨u, rfl⟩ ⟨post, htail.symm⟩ (by omega)
    · have hlen := List.length_pos_of_ne_nil hx
      rw [List.length_append] at hle
      omega

namespace Request

variable {r : Request} {code : Nat} {transmitting : Bool} {pre post : List Input}
  {b s t v : List Char} {o : Option Char}

/-- Nothing follows the whole of a request. -/
theorem nothing_follows (hbytes : bytes pre ++ ((s ++ t) ++ bytes post) = r.render)
    (hpre : bytes pre ++ s = r.render) : t = [] ∧ bytes post = [] := by
  rw [← hpre, List.append_assoc, List.append_right_inj, List.append_right_eq_self] at hbytes
  exact List.append_eq_nil_iff.mp hbytes

/-- **A chunked request that expects 100**, to its end or to a byte that is refused. -/
theorem servedOnce_chunks_expected {ks : List Chunk} {last : LastChunk}
    (hb : r.body = .chunked ks last) (hhost : ¬ r.hostless)
    (hw : RxRequest.init.Wants r.head r.received) (hexpect : r.expectsContinue)
    (ha : Awaits o .init v) (hall : o = none → v = r.body.text)
    (hbytes : bytes pre ++ ((s ++ t) ++ bytes post) = r.render) (hs : s ≠ [])
    (hpre : bytes pre ++ s = r.head ++ v) (ht : o.toList <+: t)
    (hu : Undivided site (.ready code transmitting) (pre ++ [.read (s ++ t)])) :
    ServedOnce r.head.length
        (run site (.ready code transmitting) (pre ++ .read (s ++ t) :: post)).log ↔
      r.head.length ≤ (bytes pre).length ∧
        (run site (.ready code transmitting) pre).transmitting = false := by
  have hkeep := r.keepAlive_received
  have hq := chunked_received hb hhost
  have hexpect := r.expectContinue_received.mpr hexpect
  cases o with
  | none =>
    rw [hall rfl] at hpre ha
    obtain ⟨rfl, hpost⟩ := nothing_follows hbytes hpre
    rw [List.append_nil] at hu ⊢
    exact servedOnce_expected site hw hq hexpect hkeep ha hs hpre hu hpost
  | some d =>
    obtain ⟨t, rfl⟩ := ht
    exact servedOnce_chunk_refused site hw hq hexpect hkeep ha hs hpre hu post

/-- **A chunked request that does not**, once a byte after its head has been read. -/
theorem not_servedOnce_chunks {ks : List Chunk} {last : LastChunk}
    (hb : r.body = .chunked ks last) (hhost : ¬ r.hostless)
    (hw : RxRequest.init.Wants r.head r.received) (hexpect : ¬ r.expectsContinue)
    (hbytes : bytes pre ++ (b ++ bytes post) = r.render) (hbne : b ≠ [])
    (hbeyond : r.head.length < (bytes pre).length + b.length)
    (hu : Undivided site (.ready code transmitting) (pre ++ [.read b])) :
    ¬ ServedOnce r.head.length
      (run site (.ready code transmitting) (pre ++ .read b :: post)).log := by
  have hnot : r.received.expectContinue = false := by
    rw [← r.expectContinue_received] at hexpect
    simpa using hexpect
  have hprefix : r.head <+: bytes pre ++ b := by
    refine List.prefix_of_prefix_length_le ⟨r.body.text, rfl⟩ ⟨bytes post, ?_⟩ ?_
    · rw [List.append_assoc, hbytes]
      rfl
    · rw [List.length_append]
      omega
  obtain ⟨t, ht⟩ := hprefix
  have hne : t ≠ [] := by
    rintro rfl
    have hlen := congrArg List.length ht
    rw [List.append_nil, List.length_append] at hlen
    omega
  exact not_servedOnce_early site hw (chunked_received hb hhost) hnot r.keepAlive_received hne hbne
    ht.symm hu post

end Request

namespace Sample

theorem forall_mem_of_all {p : Char → Prop} [DecidablePred p] {s : List Char}
    (h : s.all (fun c => decide (p c)) = true) : ∀ c ∈ s, p c := by
  simpa using h

def host : Field where
  name := "Host".toList
  blanks := [' ']
  value := ['a']
  isName := forall_mem_of_all rfl
  name_ne := by decide
  isBlank := forall_mem_of_all rfl
  isValue := forall_mem_of_all rfl
  trimmed := rfl

def transferEncoding : Field where
  name := "Transfer-Encoding".toList
  blanks := [' ']
  value := "chunked".toList
  isName := forall_mem_of_all rfl
  name_ne := by decide
  isBlank := forall_mem_of_all rfl
  isValue := forall_mem_of_all rfl
  trimmed := rfl

def expect : Field where
  name := "Expect".toList
  blanks := [' ']
  value := "100-continue".toList
  isName := forall_mem_of_all rfl
  name_ne := by decide
  isBlank := forall_mem_of_all rfl
  isValue := forall_mem_of_all rfl
  trimmed := rfl

/-- The header line of a chunk whose size is one digit. -/
def digit (c : Char) (hc : isXDigit c) : ChunkLine where
  digits := [c]
  extension := none
  isDigit := by simpa using hc
  digits_ne := by simp

def one : Chunk := ⟨digit '1' rfl, ['x'], by decide, rfl⟩

def last : LastChunk := ⟨digit '0' rfl, [], rfl⟩

/-- A chunked request. -/
def post (fields : List Field)
    (kept : contains (lower (combined fields "connection")) "close".toList = false)
    (announced : Body.Announced fields (.chunked [one] last)) : Request where
  method := "POST".toList
  uri := ['/']
  fields := fields
  body := .chunked [one] last
  isMethod := forall_mem_of_all rfl
  method_ne := by decide
  isUri := forall_mem_of_all rfl
  uri_ne := by decide
  kept := kept
  announced := announced
  trace := by simp

/-- It does not expect 100. -/
def early : Request :=
  post [host, transferEncoding] (by decide) ⟨by decide, by decide, by decide⟩

/-- It expects 100. -/
def expected : Request :=
  post [host, transferEncoding, expect] (by decide) ⟨by decide, by decide, by decide⟩

/-- Its method is not of letters alone. -/
def search : Request where
  method := "M-SEARCH".toList
  uri := ['*']
  fields := [host]
  body := .plain []
  isMethod := forall_mem_of_all rfl
  method_ne := by decide
  isUri := forall_mem_of_all rfl
  uri_ne := by decide
  kept := by decide
  announced := ⟨.inl (by decide), .inl ⟨by decide, rfl⟩⟩
  trace := by simp

/-- Without an index file. -/
def empty : Site := ⟨none, fun _ => []⟩

theorem expected_within : expected.Within where
  isMethod := forall_mem_of_all rfl
  method_le := by decide
  uri_le := by decide
  limited := by
    refine ⟨fun f hf => ?_, by decide, by decide⟩
    simp only [expected, post, List.mem_cons, List.not_mem_nil, or_false] at hf
    rcases hf with rfl | rfl | rfl
    · exact ⟨forall_mem_of_all rfl, by decide, by decide⟩
    · exact ⟨forall_mem_of_all rfl, by decide, by decide⟩
    · exact ⟨forall_mem_of_all rfl, by decide, by decide⟩

theorem expected_decided : expected.Decided expected.render none := by
  obtain ⟨k, hk, hmore⟩ := Chunk.wants (k := one) ⟨by decide, by decide, by decide, by decide⟩
  obtain ⟨l, hl, hlast⟩ := LastChunk.wants (k := last) ⟨by decide, by decide, by decide, by decide⟩
    (.cr rfl)
  exact .chunks rfl (by decide) (Request.wants expected_within) (.more hk hmore (.last hl hlast))
    (by simp) (by simp)

theorem search_decided : search.Decided ['M', '-'] none :=
  .byte (.requestLine ⟨rfl, rfl⟩ (.there rfl rfl (.here rfl rfl))) ⟨_, rfl⟩ (by decide)

end Sample

end Camerasp.Http
