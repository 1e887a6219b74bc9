/-
Baselib.HttpServer.ParserFraming — the octets of a request which has been
accepted: where its head ends, what stands in the lines of the head, and
how they give the length of the body.

The head is read here the way an intermediary reads it: the octets up to
the first empty line, the lines between the CRLFs, the name before the
first colon and the value after it without the white space around it.
Two of the parser's habits show. The white space around a value is cut
off before the value is checked, so a CR, LF, VT or FF next to the white
space passes; and the length is read by a conversion which takes a sign.
-/
import Baselib.HttpServer.ParserTheorems

namespace Baselib.HttpServer

open Lib Baselib.Core List
open Core.Uri (isDigit digitsValue toLowerAscii toLowerCopy)
open ParserHelpers (isCtl)
open HttpHeader

/-! ## The octets of a request -/

/-- The octets before the first empty line. -/
def messageHead (s : Octets) : Octets :=
  s.take ((findText sentinel s).getD s.length)

/-- The lines of the head. -/
def headLines (s : Octets) : List Octets := splitText crlf (messageHead s)

/-- The lines of the head after the request line. -/
def headerLines (s : Octets) : List Octets := (headLines s).tail

def headerName (line : Octets) : Octets := (cut nameSeparator line).1

/-- What stands after the colon. -/
def headerText (line : Octets) : Octets := (cut nameSeparator line).2.getD []

def headerValue (line : Octets) : Octets := Str.trim (headerText line)

/-- The white space which `trim` takes off a text. -/
def trimmed (text : Octets) : Octets :=
  text.takeWhile Str.isSpace ++ (text.dropWhile Str.isSpace).rtakeWhile Str.isSpace

theorem mem_trimmed {text : Octets} {ch : UInt8} (h : ch ∈ trimmed text) :
    ch ∈ text ∧ Str.isSpace ch := by
  unfold trimmed at h
  rw [mem_append] at h
  cases h with
  | inl h => exact ⟨(takeWhile_sublist _).subset h, mem_takeWhile_imp h⟩
  | inr h =>
    exact ⟨(dropWhile_sublist _).subset ((rtakeWhile_suffix _ _).subset h),
      mem_rtakeWhile_imp h⟩

theorem mem_of_not_mem_trimmed {text : Octets} {ch : UInt8} (h : ch ∈ text) :
    ch ∈ Str.trim text ∨ ch ∈ trimmed text := by
  have hsplit : text = text.takeWhile Str.isSpace ++ (Str.trim text ++
      (text.dropWhile Str.isSpace).rtakeWhile Str.isSpace) := by
    rw [Str.trim, rdropWhile_append_rtakeWhile, takeWhile_append_dropWhile]
  rw [hsplit, mem_append, mem_append] at h
  unfold trimmed
  rw [mem_append]
  tauto

/-! ## The lines of an accepted head -/

namespace ParserHelpers

theorem HeaderLine.cut_eq {line name value : Octets} (h : HeaderLine line name value) :
    ∃ n, headerName line = n ∧ isValidName n ∧ name = toLowerCopy n ∧
      line = n ++ nameSeparator :: headerText line ∧
      value = headerValue line := by
  obtain ⟨n, v, rfl, hvalid, hmem, rfl, rfl⟩ := h.line
  have hcut := cut_append_cons v hmem
  refine ⟨n, ?_, hvalid, rfl, ?_, ?_⟩
  · unfold headerName
    rw [hcut]
  · unfold headerText
    rw [hcut, Option.getD_some]
  · unfold headerValue headerText
    rw [hcut, Option.getD_some]

theorem isValidValue_iff {value : Octets} :
    isValidValue value ↔ ∀ ch ∈ value, ch = '\t'.toUInt8 ∨ isChar ch ∧ ¬ isCtl ch := by
  unfold isValidValue
  rw [all_eq_true]
  refine forall_congr' fun ch => forall_congr' fun _ => ?_
  simp only [Bool.or_eq_true, beq_iff_eq, Bool.not_eq_true', Bool.or_eq_false_iff,
    Bool.not_eq_false', Bool.not_eq_true, eq_comm (a := ch)]

theorem not_isCtl_of_isValidName {name : Octets} (h : isValidName name) {ch : UInt8}
    (hch : ch ∈ name) : ¬ isCtl ch := by
  unfold isValidName at h
  rw [Bool.and_eq_true, all_eq_true] at h
  have hall := h.2 ch hch
  simp only [Bool.not_eq_true', Bool.or_eq_false_iff] at hall
  simp [hall.1.2]

end ParserHelpers

/-! ## No control octets in the head -/

/-- No octet of a line is a control octet other than HTAB. -/
def CleanLine (line : Octets) : Prop := ∀ ch ∈ line, isCtl ch → ch = '\t'.toUInt8

/-- The white space around the value of a line is made of SP and HTAB. -/
def BlankPadding (line : Octets) : Prop :=
  ∀ ch ∈ trimmed (headerText line), ch = space ∨ ch = '\t'.toUInt8

namespace ParserHelpers

theorem HeaderLine.clean_iff {line name value : Octets} (h : HeaderLine line name value) :
    CleanLine line ↔ BlankPadding line := by
  obtain ⟨n, -, hvalid, -, hline, rfl⟩ := h.cut_eq
  have hspace : ∀ ch, Str.isSpace ch → ¬ isCtl ch → ch = space := by decide +kernel
  refine ⟨fun hclean ch hch => ?_, fun hblank ch hch hctl => ?_⟩
  · obtain ⟨hmem, hsp⟩ := mem_trimmed hch
    by_cases hctl : isCtl ch
    · refine .inr (hclean ch ?_ hctl)
      rw [hline]
      exact mem_append_right _ (mem_cons_of_mem _ hmem)
    · exact .inl (hspace ch hsp hctl)
  · rw [hline, mem_append, mem_cons] at hch
    obtain hname | rfl | htext := hch
    · exact absurd hctl (not_isCtl_of_isValidName hvalid hname)
    · exact absurd hctl (by decide)
    · cases mem_of_not_mem_trimmed htext with
      | inl hvalue =>
        cases isValidValue_iff.mp h.value_valid ch hvalue with
        | inl htab => exact htab
        | inr hchar => exact absurd hctl hchar.2
      | inr hpad =>
        cases hblank ch hpad with
        | inl hsp =>
          subst hsp
          exact absurd hctl (by decide)
        | inr htab => exact htab

theorem RequestLine.clean {line method uri version : Octets}
    (h : RequestLine line method uri version) : CleanLine line := by
  intro ch hch hctl
  rw [← @List.intercalate_splitOn _ line _ _ space, h.elements] at hch
  simp only [intercalate_cons_cons, intercalate_singleton, mem_append,
    mem_singleton] at hch
  have hversion : ∀ ch ∈ version, ¬ isCtl ch := by
    cases h.version_supported with
    | inl h | inr h =>
      subst h
      decide +kernel
  obtain (hmethod | rfl) | (huri | rfl) | hlast := hch
  · exact absurd hctl (not_isCtl_of_isValidName h.method_valid hmethod)
  · exact absurd hctl (by decide)
  · cases isValidValue_iff.mp h.uri_valid ch huri with
    | inl htab => exact htab
    | inr hchar => exact absurd hctl hchar.2
  · exact absurd hctl (by decide)
  · exact absurd hctl (hversion ch hlast)

end ParserHelpers

namespace Parser

open ParserHelpers

variable {s : Octets} {posSentinel : Nat} {fields : HeadFields}

theorem HeadRead.messageHead_eq (h : HeadRead s posSentinel fields) :
    messageHead s = s.take posSentinel := by
  rw [messageHead, h.sentinel, Option.getD_some]

theorem exists_headerLine {lines : List Octets} {entries : List (Octets × Octets)}
    (h : List.Forall₂ (fun line header => HeaderLine line header.1 header.2) lines entries) :
    ∀ line ∈ lines, ∃ name value, HeaderLine line name value :=
  ((forall₂_and_left lines entries).mp (h.imp fun _ _ hline => ⟨⟨_, _, hline⟩, hline⟩)).1

/-- An accepted head has no control octet but HTAB exactly if the white
space around its values has none. -/
theorem HeadRead.clean_iff (h : HeadRead s posSentinel fields) :
    (∀ line ∈ headLines s, CleanLine line) ↔ ∀ line ∈ headerLines s, BlankPadding line := by
  obtain ⟨line, lines, version, hsplit, hrequest, hheaders⟩ := h.head.lines
  unfold headerLines headLines
  rw [h.messageHead_eq, hsplit, tail_cons, forall_mem_cons]
  refine Iff.trans (and_iff_right hrequest.clean) (forall₂_congr fun line hmem => ?_)
  obtain ⟨name, value, hline⟩ := exists_headerLine hheaders line hmem
  exact hline.clean_iff

variable {chunks : List Octets}

/-- In a request which is accepted no line of the head has a control
octet other than HTAB, exactly if the white space which is cut off the
values of its header lines is made of SP and HTAB. -/
theorem headLines_clean_iff (hchunks : chunks ≠ [])
    (hfeed : (feed chunks {}).1 = answers chunks.length) :
    (messageHead chunks.flatten ++ sentinel <+: chunks.flatten ∧
      crlf.intercalate (headLines chunks.flatten) = messageHead chunks.flatten ∧
      ∀ line ∈ headLines chunks.flatten, CleanLine line) ↔
      ∀ line ∈ headerLines chunks.flatten, BlankPadding line := by
  obtain ⟨posSentinel, fields, hread, -⟩ := reading_nil.feed_answers hchunks hfeed
  rw [List.nil_append] at hread
  have hsplit : messageHead chunks.flatten ++ sentinel <+: chunks.flatten := by
    rw [hread.messageHead_eq]
    exact ⟨_, (findText_split hread.sentinel).symm⟩
  have hjoin : crlf.intercalate (headLines chunks.flatten) =
      messageHead chunks.flatten := intercalate_splitText crlf_ne_nil _
  rw [and_iff_right hsplit, and_iff_right hjoin, hread.clean_iff]

theorem headLines_clean_get :
    headLines (octets "GET / HTTP/1.0\r\nA: \tb \r\n\r\n")
      = [octets "GET / HTTP/1.0", octets "A: \tb "] ∧
    CleanLine (octets "GET / HTTP/1.0") ∧ CleanLine (octets "A: \tb ") := by
  have hlines : headLines (octets "GET / HTTP/1.0\r\nA: \tb \r\n\r\n")
      = [octets "GET / HTTP/1.0", octets "A: \tb "] := by decide +kernel
  have hclean : ∀ line ∈ headLines (octets "GET / HTTP/1.0\r\nA: \tb \r\n\r\n"),
      CleanLine line :=
    ((headLines_clean_iff
      (List.cons_ne_nil (octets "GET / HTTP/1.0\r\nA: \t") [octets "b \r\n\r\n"])
      (by decide +kernel)).mpr (by unfold BlankPadding; decide +kernel)).2.2
  rw [hlines] at hclean
  exact ⟨hlines, hclean _ List.mem_cons_self,
    hclean _ (List.mem_cons_of_mem _ List.mem_cons_self)⟩

/-- An LF after the value of a header line is cut off with the white
space. -/
theorem headLines_bareLf :
    (feed [octets "GET / HTTP/1.0\r\nA:b\n\r\n\r\n"] {}).1 = answers 1 ∧
      ¬ ∀ line ∈ headLines (octets "GET / HTTP/1.0\r\nA:b\n\r\n\r\n"), CleanLine line := by
  unfold CleanLine
  decide +kernel

/-! ## The length of the body -/

/-- The header lines of a name, whatever its case. -/
def linesNamed (name s : Octets) : List Octets :=
  (headerLines s).filter fun line => Str.iequals (headerName line) name

/-- A value which is a decimal number within the limit of a body. -/
def LengthValue (value : Octets) : Prop :=
  value ≠ [] ∧ value.all isDigit ∧ digitsValue value ≤ maxContentSize

/-- A `Content-Length`, if there is one, has one of the values RFC 7230
allows. -/
structure LengthWellFormed (s : Octets) : Prop where
  unique : (linesNamed contentLength s).length ≤ 1
  digits : ∀ line ∈ linesNamed contentLength s, LengthValue (headerValue line)

/-- The length which the head declares. -/
def declaredLength (s : Octets) : Nat :=
  match linesNamed contentLength s with
  | [] => 0
  | line :: _ => digitsValue (headerValue line)

/-- The request a parser has is framed as its head declares. -/
structure Framed (s : Octets) (context : Context) : Prop where
  not_chunked : linesNamed transferEncoding s = []
  length : LengthWellFormed s
  body : ∃ request, buildRequest context = .ok request ∧
    s = messageHead s ++ sentinel ++ request.body ∧
    request.body.length = declaredLength s

/-- No `Content-Length` has a sign. -/
def Unsigned (s : Octets) : Prop :=
  ∀ line ∈ linesNamed contentLength s,
    ∀ ch ∈ (headerValue line).head?, ch ≠ '+'.toUInt8 ∧ ch ≠ '-'.toUInt8

theorem iequals_toLowerCopy (name name' : Octets) :
    Str.iequals (toLowerCopy name) name' = Str.iequals name name' := by
  have hidem : ∀ ch, toLowerAscii (toLowerAscii ch) = toLowerAscii ch := by decide +kernel
  unfold Str.iequals toLowerCopy
  rw [List.map_map, show toLowerAscii ∘ toLowerAscii = toLowerAscii from funext hidem]

/-- The lines of a name go with the entries of the name. -/
theorem Head.linesNamed {lines : List Octets} {entries : List (Octets × Octets)}
    (h : List.Forall₂ (fun line header => HeaderLine line header.1 header.2) lines entries)
    (name : Octets) :
    List.Forall₂ (fun line header => HeaderLine line header.1 header.2)
      (lines.filter fun line => Str.iequals (headerName line) name)
      (entries.filter fun header => Str.iequals header.1 name) := by
  refine rel_filter (fun line header hline => ?_) h
  obtain ⟨n, hn, -, hname, -, -⟩ := hline.cut_eq
  show Str.iequals (headerName line) name = true ↔ Str.iequals header.1 name = true
  rw [hname, iequals_toLowerCopy, hn]

theorem Head.entries_lower {lines : List Octets} {entries : List (Octets × Octets)}
    (h : List.Forall₂ (fun line header => HeaderLine line header.1 header.2) lines entries) :
    ∀ header ∈ entries, ∃ n, header.1 = toLowerCopy n := by
  induction h with
  | nil => exact fun _ hmem => absurd hmem not_mem_nil
  | cons hline _ ih =>
    intro header hmem
    cases hmem with
    | head =>
      obtain ⟨n, -, -, hlower, -⟩ := hline.cut_eq
      exact ⟨n, hlower⟩
    | tail _ hmem => exact ih header hmem

/-- No two entries have names which differ in case only. -/
theorem Head.entries_filter {lines : List Octets} {headers : HeadersMap}
    (h : List.Forall₂ (fun line header => HeaderLine line header.1 header.2) lines
      headers.entries) (name : Octets) :
    (headers.entries.filter fun header => Str.iequals header.1 name).length ≤ 1 := by
  have hname : ∀ header ∈ headers.entries.filter fun header => Str.iequals header.1 name,
      header.1 = toLowerCopy name := by
    intro header hmem
    obtain ⟨hmem, heq⟩ := mem_filter.mp hmem
    obtain ⟨n, hlower⟩ := Head.entries_lower h header hmem
    rw [hlower, iequals_toLowerCopy] at heq
    rw [hlower]
    exact beq_iff_eq.mp heq
  have hnodup := headers.nodup.sublist
    ((filter_sublist (p := fun header => Str.iequals header.1 name)).map Prod.fst)
  generalize headers.entries.filter (fun header => Str.iequals header.1 name) = entries at *
  match entries with
  | [] => exact Nat.zero_le 1
  | [_] => exact Nat.le_refl 1
  | a :: b :: _ =>
    have hab : a.1 = b.1 := (hname a mem_cons_self).trans
      (hname b (mem_cons_of_mem _ mem_cons_self)).symm
    simp [hab] at hnodup

/-- A name is found in the map exactly if one line has it. -/
theorem HeadRead.linesNamed_cases (h : HeadRead s posSentinel fields) (name : Octets) :
    (fields.headers.findName name = none ∧ linesNamed name s = []) ∨
      ∃ header line, fields.headers.findName name = some header ∧
        linesNamed name s = [line] ∧ headerValue line = header.2 := by
  obtain ⟨line, lines, version, hsplit, -, hheaders⟩ := h.head.lines
  have hlines : headerLines s = lines := by
    unfold headerLines headLines
    rw [h.messageHead_eq, hsplit, tail_cons]
  have hfind : fields.headers.findName name =
      (fields.headers.entries.filter fun header => Str.iequals header.1 name).head? :=
    head?_filter.symm
  have hnamed := Head.linesNamed hheaders name
  have hone := Head.entries_filter hheaders name
  unfold linesNamed
  rw [hfind, hlines]
  generalize fields.headers.entries.filter (fun header => Str.iequals header.1 name) = entries
    at *
  cases entries with
  | nil => exact .inl ⟨rfl, forall₂_nil_right_iff.mp hnamed⟩
  | cons header entries =>
    cases entries with
    | cons header' entries => exact absurd hone (by simp)
    | nil =>
      obtain ⟨line, lines, hline, hnil, heq⟩ := forall₂_cons_right_iff.mp hnamed
      rw [forall₂_nil_right_iff.mp hnil] at heq
      obtain ⟨-, -, -, -, -, hvalue⟩ := hline.cut_eq
      exact .inr ⟨header, line, rfl, heq, hvalue.symm⟩

/-- The length is read as the head declares it exactly if it has no
sign. -/
theorem HeadRead.length_iff (h : HeadRead s posSentinel fields) :
    LengthWellFormed s ∧ fields.length = declaredLength s ↔ Unsigned s := by
  have hdigit : ∀ ch, isDigit ch → ch ≠ '+'.toUInt8 ∧ ch ≠ '-'.toUInt8 := by decide +kernel
  have hframing := h.head.framing.length_eq
  refine ⟨fun hgood line hline ch hch => ?_, fun hunsigned => ?_⟩
  · obtain ⟨-, hall, -⟩ := hgood.1.digits line hline
    exact hdigit ch (all_eq_true.mp hall ch (mem_of_mem_head? hch))
  · obtain ⟨hnone, hlines⟩ | ⟨header, line, hsome, hlines, hvalue⟩ :=
      h.linesNamed_cases contentLength
    · obtain ⟨-, hzero⟩ | ⟨header, hsome, -⟩ := hframing
      · unfold declaredLength
        refine ⟨⟨by simp [hlines], by simp [hlines]⟩, by rw [hlines, hzero]⟩
      · simp [hnone] at hsome
    · obtain ⟨hnone, -⟩ | ⟨header', hsome', hcast⟩ := hframing
      · simp [hnone] at hsome
      · cases Option.some.inj (hsome'.symm.trans hsome)
        have hline : line ∈ linesNamed contentLength s := by simp [hlines]
        have hhead := hunsigned line hline
        rw [hvalue] at hhead
        rw [Str.lexicalCast_of_unsigned hhead, Str.unsignedDigits_eq_some] at hcast
        obtain ⟨hne, hall, -, hlength⟩ := hcast
        have hcontent := h.content_size
        rw [← hlength] at hcontent
        refine ⟨⟨by simp [hlines], fun l hl => ?_⟩, ?_⟩
        · rw [hlines, mem_singleton] at hl
          subst hl
          rw [LengthValue, hvalue]
          exact ⟨hne, hall, hcontent⟩
        · unfold declaredLength
          rw [hlines]
          show fields.length = digitsValue (headerValue line)
          rw [hvalue, hlength]

/-- The octets after the sentinel are the body. -/
theorem RequestRead.body_eq (h : RequestRead s posSentinel fields) :
    ∃ request, buildRequest (requestContext posSentinel fields s) = .ok request ∧
      s = messageHead s ++ sentinel ++ request.body ∧
      request.body.length = fields.length := by
  have hlength := h.length_eq
  have hbody : (requestContext posSentinel fields s).body =
      s.drop (posSentinel + sentinel.length) := by
    show (if fields.length > 0 then _ else []) = _
    split_ifs with hpos
    · rw [take_of_length_le]
      rw [length_drop]
      omega
    · rw [drop_eq_nil_of_le (by omega)]
  refine ⟨_, rfl, ?_, ?_⟩
  · show s = messageHead s ++ sentinel ++ (requestContext posSentinel fields s).body
    rw [hbody, h.messageHead_eq]
    exact findText_split h.sentinel
  · show (requestContext posSentinel fields s).body.length = fields.length
    rw [hbody, length_drop]
    omega

theorem HeadRead.not_chunked (h : HeadRead s posSentinel fields) :
    linesNamed transferEncoding s = [] := by
  obtain ⟨-, hlines⟩ | ⟨header, line, hsome, -, -⟩ :=
    h.linesNamed_cases transferEncoding
  · exact hlines
  · rw [h.head.framing.not_chunked] at hsome
    cases hsome

theorem RequestRead.framed_iff (h : RequestRead s posSentinel fields) :
    Framed s (requestContext posSentinel fields s) ↔ Unsigned s := by
  obtain ⟨request, hrequest, hbody, hlength⟩ := h.body_eq
  refine ⟨fun hframed => ?_, fun hunsigned => ?_⟩
  · obtain ⟨request', hrequest', -, hdeclared⟩ := hframed.body
    cases Except.ok.inj (hrequest'.symm.trans hrequest)
    exact h.length_iff.mp ⟨hframed.length, hlength.symm.trans hdeclared⟩
  · obtain ⟨hwell, hdeclared⟩ := h.length_iff.mpr hunsigned
    exact ⟨h.not_chunked, hwell, request, hrequest, hbody, hlength.trans hdeclared⟩

/-- A request which is accepted is framed as its head declares exactly if
no `Content-Length` has a sign; and a head whose `Content-Length` has
another form which is not allowed is refused as soon as it is complete,
whatever the chunks. -/
theorem framing_iff (chunks : List Octets) :
    (chunks ≠ [] → (feed chunks {}).1 = answers chunks.length →
      (Framed chunks.flatten (feed chunks {}).2 ↔ Unsigned chunks.flatten)) ∧
    ∀ chunk, chunk ≠ [] →
      (∀ outcome ∈ (feed chunks {}).1, outcome = .answered (serverResult .moreDataRequired)) →
      sentinel <:+: chunks.flatten ++ chunk →
      Unsigned (chunks.flatten ++ chunk) → ¬ LengthWellFormed (chunks.flatten ++ chunk) →
      ∃ message, (parse chunk (feed chunks {}).2).1 = .answered (.parsingError, message) := by
  refine ⟨fun hchunks hfeed => ?_, fun chunk hne hmore hin hunsigned hill => ?_⟩
  · obtain ⟨posSentinel, fields, hread, hcontext⟩ := reading_nil.feed_answers hchunks hfeed
    rw [List.nil_append] at hread hcontext
    rw [hcontext]
    exact hread.framed_iff
  · have hreading := reading_nil.feed_moreData hmore
    rw [List.nil_append] at hreading
    obtain ⟨⟨code, message⟩, hanswer⟩ := hreading.parse_answered hne
    refine ⟨message, ?_⟩
    by_contra hcode
    obtain ⟨-, -, hnone | ⟨posSentinel, fields, hread⟩⟩ :=
      hreading.cases_of_answer (Prod.ext hanswer rfl) fun h => hcode (h ▸ hanswer)
    · exact (findText_eq_none_iff sentinel_ne_nil).mp hnone hin
    · exact hill (hread.length_iff.mpr hunsigned).1

/-- A request with a body, in two chunks, and a head with a length which is
no number. -/
theorem framing_iff_post :
    Framed (octets "POST / HTTP/1.0\r\nContent-Length: 2\r\n\r\nab")
      (feed [octets "POST / HTTP/1.0\r\nContent-Le", octets "ngth: 2\r\n\r\nab"] {}).2 ∧
    ∃ message, (parse (octets "POST / HTTP/1.0\r\nContent-Length: 2x\r\n\r\n") {}).1 =
      .answered (.parsingError, message) := by
  refine ⟨?_, ?_⟩
  · exact ((framing_iff [octets "POST / HTTP/1.0\r\nContent-Le", octets "ngth: 2\r\n\r\nab"]).1
      (List.cons_ne_nil _ _) (by decide +kernel)).mpr (by unfold Unsigned; decide +kernel)
  · refine (framing_iff []).2 (octets "POST / HTTP/1.0\r\nContent-Length: 2x\r\n\r\n")
      (List.cons_ne_nil _ _) (fun _ h => absurd h List.not_mem_nil) (by decide +kernel)
      (by unfold Unsigned; decide +kernel) fun hwell => ?_
    have hdigits := hwell.digits (octets "Content-Length: 2x") (by decide +kernel)
    exact absurd hdigits.2.1 (by decide +kernel)

/-- `+2` is a length to the conversion. -/
theorem framing_signed :
    (feed [octets "POST / HTTP/1.0\r\nContent-Length: +2\r\n\r\nab"] {}).1 = answers 1 ∧
      ¬ LengthWellFormed (octets "POST / HTTP/1.0\r\nContent-Length: +2\r\n\r\nab") := by
  have hfeed : (feed [octets "POST / HTTP/1.0\r\nContent-Length: +2\r\n\r\nab"] {}).1 =
      answers 1 := by decide +kernel
  refine ⟨hfeed, fun hwell => ?_⟩
  have hdigits := hwell.digits (octets "Content-Length: +2") (by decide +kernel)
  exact absurd hdigits.2.1 (by decide +kernel)

end Parser

end Baselib.HttpServer
