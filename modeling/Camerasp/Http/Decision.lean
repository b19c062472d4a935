import Camerasp.Http.Message
import Camerasp.Http.Rejection

/-!
# Where the receiver decides

Of every well-formed request the receiver takes all, or refuses some first part:
`Request.Decided r v o` says that it has decided with the last byte of `v`, which it notices in a
field or in a chunk only where the byte `o` behind is in the same packet. `exists_decided`: there is
such a place in every request.

The lemmas on the way (`taken_or_refused`, `wants_or_refuses`) say the same of a field, of fields,
of a head and of chunks.
-/

namespace Camerasp.Http

open Camerasp.Lib (Scanner)

/-- What follows a first part, where something does. -/
theorem exists_next {u w t : List Char} (ht : t ≠ []) :
    ∃ c, u ++ [c] <+: (u ++ w) ++ t := by
  obtain ⟨c, s, hs⟩ := List.exists_cons_of_ne_nil (l := w ++ t) (by simp [ht])
  exact ⟨c, s, by rw [List.append_assoc, List.append_assoc, hs]; rfl⟩

/-! ## Fields -/

namespace Field

/-- **The line of a field is taken, or refused before its end.** -/
theorem taken_or_refused (f : Field) :
    f.Taken ∨ ∃ u w, f.text = u ++ w ∧ FieldLine.scanner.Refuses .init u := by
  have hend : '\n' ∉ f.name := fun h => absurd (isTokenChar_not_end (f.isName _ h)) (by decide)
  have hcolon : ':' ∉ f.name := fun h => ne_of_isTokenChar (f.isName _ h) (by decide) rfl
  rcases FieldLine.run_or_refuses hend f.isBlank f.isValue with ⟨l, hrun⟩ | hrefused
  · obtain ⟨hname, hblanks, hline⟩ := FieldLine.limits_of_run hcolon f.isBlank hrun
    exact .inl ⟨hname, hblanks, hline⟩
  · exact .inr hrefused

theorem head_text (f : Field) : ∃ c s, f.text = c :: s ∧ isTokenChar c := by
  obtain ⟨c, name, hname⟩ := List.exists_cons_of_ne_nil f.name_ne
  exact ⟨c, _, by rw [text, fieldText, hname]; rfl, f.isName c (by simp [hname])⟩

end Field

/-- Neither a field nor the blank line begins with a blank. -/
theorem head_fieldsText (fs : List Field) :
    ∃ c s, fieldsText fs = c :: s ∧ isSpaceOrTab c = false := by
  cases fs with
  | nil => exact ⟨'\r', ['\n'], rfl, rfl⟩
  | cons f fs =>
    obtain ⟨c, s, htext, hc⟩ := f.head_text
    exact ⟨c, s ++ fieldsText fs, by simp [fieldsText, htext], isTokenChar_not_blank hc⟩

theorem fieldsText_cons (f : Field) (fs : List Field) :
    fieldsText (f :: fs) = f.text ++ fieldsText fs := by
  simp [fieldsText]

/-- The first byte of a first part. -/
theorem head?_of_begins {u : List Char} {c : Char} {s : List Char} (hu : u ≠ [])
    (h : u <+: c :: s) : u.head? = some c := by
  obtain ⟨d, u, rfl⟩ := List.exists_cons_of_ne_nil hu
  obtain ⟨t, ht⟩ := h
  rw [List.cons_append, List.cons.injEq] at ht
  rw [List.head?_cons, ht.1]

/-- **Fields are taken, or refused before their end.** -/
theorem MessageHeaders.wants_or_refuses (fs : List Field) {h : MessageHeaders}
    (hf : h.field = .init) :
    h.Wants (fieldsText fs) { fs.foldl withField h with valid := true } ∨
      ∃ v c, v ++ [c] <+: fieldsText fs ∧ h.Refuses v c := by
  induction fs generalizing h with
  | nil => exact .inl (.cr hf)
  | cons f fs ih =>
    rw [fieldsText_cons]
    obtain ⟨c, s, hnext, hblank⟩ := head_fieldsText fs
    rcases f.taken_or_refused with htaken | ⟨u, w, htext, hrefused⟩
    · obtain ⟨l, hrun, hl, hname, hvalue⟩ := Field.run_text htaken
      have htake : h.take l = h.withField f := by
        simp [take, withField, hname, hvalue, Field.length, Field.key, lower]
      rw [← hf] at hrun
      by_cases hlong : (h.take l).tooLong
      · exact .inr ⟨f.text, c, ⟨s, by rw [List.append_assoc, hnext]; rfl⟩,
          .limit hrun f.text_ne_nil hl (fun _ => hf) hlong hblank⟩
      · have hshort : (h.take l).tooLong = false := by simpa using hlong
        rcases ih (h := h.withField f) rfl with hwants | ⟨v, d, hv, hr⟩
        · exact .inl (.field hrun f.text_ne_nil hl (fun _ => hf) hshort (htake ▸ hwants))
        · have hprefix : v <+: c :: s := hnext ▸ (List.prefix_append v [d]).trans hv
          have hhead := head?_of_begins hr.ne_nil hprefix
          refine .inr ⟨f.text ++ v, d, ?_, .field hrun f.text_ne_nil hl (fun _ => hf) hshort
            (htake ▸ hr) (by rw [hhead]; exact hblank)⟩
          rw [List.append_assoc]
          exact (List.prefix_append_right_inj f.text).mpr hv
    · obtain ⟨d, hd⟩ := exists_next (u := u) (w := w) (t := fieldsText fs) (by rw [hnext]; simp)
      rw [← htext] at hd
      refine .inr ⟨u, d, hd, .line (hf ▸ hrefused) fun _ => ⟨hf, ?_⟩⟩
      obtain ⟨a, v, hfirst, ha⟩ := f.head_text
      rw [head?_of_begins hrefused.ne_nil ⟨w, by rw [← htext]; exact hfirst⟩]
      exact isTokenChar_not_end ha

/-! ## The head -/

namespace Request

/-- **A request line is taken, or refused before its end.** -/
theorem line_or_refused (r : Request) :
    RequestLine.scanner.run .init r.requestLine = some (RequestLine.completed r.method r.uri) ∨
      ∃ u w, r.requestLine = u ++ w ∧ RequestLine.scanner.Refuses .init u := by
  have hend : '\n' ∉ r.method := fun h => absurd (isTokenChar_not_end (r.isMethod _ h)) (by decide)
  rcases RequestLine.run_or_refuses hend r.isUri with ⟨l, hrun⟩ | hrefused
  · obtain ⟨hmethod, hmethodLe, huri⟩ := RequestLine.limits_of_run
      (fun c hc => isTokenChar_not_blank (r.isMethod c hc)) r.isUri hrun
    exact .inl (RequestLine.run_requestLine hmethod r.method_ne hmethodLe r.isUri r.uri_ne huri)
  · exact .inr hrefused

/-- **A head is taken, or refused before its end.** -/
theorem wants_or_refuses (r : Request) :
    RxRequest.init.Wants r.head r.received ∨
      ∃ v o, v ++ o.toList <+: r.head ∧ v.length < r.head.length ∧ RxRequest.init.Refuses v o := by
  rcases r.line_or_refused with hrun | ⟨u, w, htext, hrefused⟩
  · rcases MessageHeaders.wants_or_refuses r.fields (h := .init) rfl with hfields | ⟨v, c, hv, hr⟩
    · exact .inl (.line ⟨rfl, rfl⟩ hrun r.requestLine_ne_nil rfl rfl (.headers rfl rfl rfl hfields))
    · have hlen := hv.length_le
      refine .inr ⟨r.requestLine ++ v, some c, ?_, ?_,
        .line ⟨rfl, rfl⟩ hrun r.requestLine_ne_nil rfl rfl (.headers rfl rfl rfl hr)⟩
      · rw [List.append_assoc]
        exact (List.prefix_append_right_inj r.requestLine).mpr hv
      · rw [List.length_append, List.length_singleton] at hlen
        rw [head, List.length_append, List.length_append]
        omega
  · obtain ⟨c, s, hnext, -⟩ := head_fieldsText r.fields
    refine .inr ⟨u, none, ⟨w ++ fieldsText r.fields, ?_⟩, ?_, .requestLine ⟨rfl, rfl⟩ hrefused⟩
    · rw [head, htext]
      simp
    · rw [head, htext, hnext]
      simp only [List.length_append, List.length_cons]
      omega

end Request

/-! ## Chunks -/

namespace ChunkLine

theorem text_eq (l : ChunkLine) : ∃ v, l.text = v ++ ['\n'] ∧ '\n' ∉ v := by
  have hdigits : '\n' ∉ l.digits := fun h => absurd (l.isDigit _ h) (by decide)
  unfold text chunkLineText
  cases l.extension with
  | none => exact ⟨l.digits ++ ['\r'], by simp [crlf], by simp [hdigits]⟩
  | some e =>
    have hblanks : '\n' ∉ e.blanks := fun h => absurd (e.isBlank _ h) (by decide)
    have hvalue : '\n' ∉ e.value := fun h => absurd (e.isValue _ h) (by decide)
    exact ⟨l.digits ++ ([';'] ++ (e.blanks ++ (e.value ++ ['\r']))), by simp [crlf],
      by simp [hdigits, hblanks, hvalue]⟩

theorem taken_of_run {l : ChunkLine} {h : ChunkHeader}
    (hrun : ChunkHeader.scanner.run .init l.text = some h) : l.Taken := by
  have hlen := ChunkHeader.length_le_of_run hrun l.text_ne_nil
  have hline : l.text.length ≤ maxLineLength := by simpa [ChunkHeader.init] using hlen
  cases hext : l.extension with
  | none =>
    have htext : l.text = l.digits ++ '\r' :: ['\n'] := by simp [text, chunkLineText, hext, crlf]
    rw [htext] at hrun
    obtain ⟨hd, hn, -⟩ := ChunkHeader.limits_of_run l.digits_ne l.isDigit (.inl rfl) hrun
    exact ⟨hd, hn, by simp [hext], hline⟩
  | some e =>
    have htext : l.text = l.digits ++ ';' :: (e.blanks ++ (e.value ++ crlf)) := by
      simp [text, chunkLineText, hext]
    rw [htext] at hrun
    obtain ⟨hd, hn, hrest⟩ := ChunkHeader.limits_of_run l.digits_ne l.isDigit (.inr rfl) hrun
    obtain ⟨h₁, hstate, hcount, hrun⟩ := hrest rfl
    obtain ⟨h₂, hblanks, -⟩ := Scanner.exists_of_run_append hrun
    have hle := ChunkHeader.blanks_le_of_run hstate (by omega) e.isBlank hblanks
    refine ⟨hd, hn, fun e' he' => ?_, hline⟩
    obtain rfl : e = e' := Option.some.inj (hext.symm.trans he')
    omega

/-- **The header line of a chunk is taken, or refused before its end.** -/
theorem taken_or_refused (l : ChunkLine) :
    l.Taken ∨ ∃ u w, l.text = u ++ w ∧ ChunkHeader.scanner.Refuses .init u := by
  obtain ⟨v, htext, hv⟩ := l.text_eq
  rcases ChunkHeader.run_or_refuses hv with ⟨h, hrun⟩ | hrefused
  · rw [← htext] at hrun
    exact .inl (taken_of_run hrun)
  · rw [← htext] at hrefused
    exact .inr hrefused

end ChunkLine

theorem Chunk.wants_or_refuses (k : Chunk) :
    (∃ c, RxChunk.init.Wants k.text c ∧ c.header.isLast = false) ∨
      ∃ v d, v ++ [d] <+: k.text ∧ RxChunk.init.Refuses v d := by
  rcases k.line.taken_or_refused with htaken | ⟨u, w, htext, hrefused⟩
  · exact .inl (Chunk.wants htaken)
  · obtain ⟨d, hd⟩ := exists_next (u := u) (w := w) (t := k.data ++ crlf) (by simp [crlf])
    rw [← htext] at hd
    exact .inr ⟨u, d, hd, .line rfl hrefused⟩

theorem LastChunk.wants_or_refuses (k : LastChunk) :
    (∃ c, RxChunk.init.Wants k.text c ∧ c.header.isLast) ∨
      ∃ v d, v ++ [d] <+: k.text ∧ RxChunk.init.Refuses v d := by
  rcases k.line.taken_or_refused with htaken | ⟨u, w, htext, hrefused⟩
  · rcases MessageHeaders.wants_or_refuses k.trailers (h := .init) rfl with hwants | ⟨v, d, hv, hr⟩
    · exact .inl (LastChunk.wants htaken hwants)
    · obtain ⟨h, hrun, hstate, hsize⟩ := ChunkLine.run_text htaken
      refine .inr ⟨k.line.text ++ v, d, ?_, .header rfl hrun k.line.text_ne_nil hstate rfl
        (.trailers rfl (LastChunk.line_isLast hsize) hr)⟩
      rw [List.append_assoc]
      exact (List.prefix_append_right_inj k.line.text).mpr hv
  · obtain ⟨c, s, hnext, -⟩ := head_fieldsText k.trailers
    obtain ⟨d, hd⟩ := exists_next (u := u) (w := w) (t := fieldsText k.trailers) (by simp [hnext])
    rw [← htext] at hd
    exact .inr ⟨u, d, hd, .line rfl hrefused⟩

/-- **The receiver takes the chunks one by one, to the last or to one that it refuses.** -/
theorem awaits_chunks (ks : List Chunk) (last : LastChunk) :
    Awaits none .init ((ks.map Chunk.text).flatten ++ last.text) ∨
      ∃ v d, v ++ [d] <+: (ks.map Chunk.text).flatten ++ last.text ∧ Awaits (some d) .init v := by
  induction ks with
  | nil =>
    rcases last.wants_or_refuses with ⟨c, hw, hl⟩ | ⟨v, d, hv, hr⟩
    · exact .inl (.last hw hl)
    · exact .inr ⟨v, d, hv, .refused hr⟩
  | cons k ks ih =>
    rw [List.map_cons, List.flatten_cons, List.append_assoc]
    rcases k.wants_or_refuses with ⟨c, hw, hl⟩ | ⟨v, d, hv, hr⟩
    · rcases ih with ha | ⟨v, d, hv, ha⟩
      · exact .inl (.more hw hl ha)
      · refine .inr ⟨k.text ++ v, d, ?_, .more hw hl ha⟩
        rw [List.append_assoc]
        exact (List.prefix_append_right_inj k.text).mpr hv
    · exact .inr ⟨v, d, hv.trans (List.prefix_append _ _), .refused hr⟩

/-! ## Requests -/

namespace Request

/-- With the last byte of `v` the receiver has decided about the request. -/
inductive Decided (r : Request) : List Char → Option Char → Prop
  /-- a byte of the head is refused -/
  | byte {v o} (hr : RxRequest.init.Refuses v o) (hv : v ++ o.toList <+: r.head)
      (hlt : v.length < r.head.length) : Decided r v o
  /-- the complete head is refused -/
  | head (hw : RxRequest.init.Wants r.head r.received) (hq : r.hostless ∨ r.received.Refused) :
      Decided r r.head none
  /-- the body is complete -/
  | plain {data} (hb : r.body = .plain data) (hw : RxRequest.init.Wants r.head r.received)
      (hq : r.received.Plain data.length) : Decided r r.render none
  /-- the last chunk is complete, or a byte of a chunk is refused -/
  | chunks {ks last v o} (hb : r.body = .chunked ks last) (hhost : ¬ r.hostless)
      (hw : RxRequest.init.Wants r.head r.received) (ha : Awaits o .init v)
      (hv : v ++ o.toList <+: r.body.text) (hall : o = none → v = r.body.text) :
      Decided r (r.head ++ v) o

/-- **The receiver decides about every request.** -/
theorem exists_decided (r : Request) : ∃ v o, r.Decided v o := by
  rcases r.wants_or_refuses with hw | ⟨v, o, hv, hlt, hr⟩
  · by_cases hhost : r.hostless
    · exact ⟨_, _, .head hw (.inl hhost)⟩
    · cases hb : r.body with
      | plain data =>
        rcases plain_or_refused hb hhost with hq | hq
        · exact ⟨_, _, .plain hb hw hq⟩
        · exact ⟨_, _, .head hw (.inr hq)⟩
      | chunked ks last =>
        rcases awaits_chunks ks last with ha | ⟨v, d, hv, ha⟩
        · exact ⟨_, _, .chunks hb hhost hw ha (by simp [hb, Body.text]) (by simp [hb, Body.text])⟩
        · exact ⟨_, _, .chunks hb hhost hw ha (by rw [hb]; exact hv) (by simp)⟩
  · exact ⟨v, o, .byte hr hv hlt⟩

end Request

end Camerasp.Http
