/-
Baselib.Http.SimpleHttpResponseTheorems — the response as one text.

`wholeResponse` reads a response which is there at once. What arrives in
pieces comes to the same (`readResponse_eq`) when the first line holds the
version and the status code: only then do the extractions of `doReadStatus`
end within the line the buffer was filled for.
-/
import Baselib.Http.StatusLine

namespace Baselib.Http.SimpleHttpTask

open Lib List
open Baselib.Core (InputStream)
open Core.InputStream
open Core.Uri (toLowerCopy)
open HttpServer (HttpHeader.cookie HeadersMap)
open HttpServer.HttpHeader (crlf sentinel contentLength crlf_eq crlf_ne_nil sentinel_eq
  sentinel_ne_nil)

/-! ## The header section -/

def carriageReturn : UInt8 := '\r'.toUInt8

/-- Lines of the header section: no line end in one, and none of them empty. -/
def HeaderLines (lines : List Octets) : Prop :=
  ∀ line ∈ lines, lineFeed ∉ line ∧ line ≠ [carriageReturn]

/-- The header section of some lines, with the empty line which ends it. -/
def headerSection (lines : List Octets) : Octets :=
  lines.flatMap (· ++ [lineFeed]) ++ crlf

theorem headerSection_cons (line : Octets) (lines : List Octets) (rest : Octets) :
    headerSection (line :: lines) ++ rest = line ++ lineFeed :: (headerSection lines ++ rest) := by
  simp [headerSection]

theorem readHeaders_section {lines : List Octets} (rest : Octets) :
    ∀ {headers : HeadersMap × Octets}, HeaderLines lines →
      readHeaders { rest := headerSection lines ++ rest } headers =
        (lines.foldl readHeader headers, { rest := rest }) := by
  induction lines with
  | nil =>
    intro headers _
    have hempty : lineFeed ∉ [carriageReturn] := by decide
    have hline := getline_line rest hempty
    rw [readHeaders, dif_neg]
    · exact congrArg (Prod.mk headers) (congrArg Prod.snd hline)
    · rintro ⟨-, hne⟩
      exact hne (congrArg Prod.fst hline)
  | cons line lines ih =>
    intro headers hlines
    obtain ⟨⟨hfeed, hne⟩, htail⟩ := forall_mem_cons.mp hlines
    have hline := getline_line (headerSection lines ++ rest) hfeed
    rw [headerSection_cons, readHeaders, hline, dif_pos ⟨rfl, hne⟩, ih htail, foldl_cons]

/-- A text with CRLFCRLF in it, or after a line end with CRLF at its front,
begins with a header section. -/
theorem exists_headerSection {text : Octets} :
    (findText [lineFeed, carriageReturn, lineFeed] (lineFeed :: text)).isSome →
      ∃ lines rest, HeaderLines lines ∧ text = headerSection lines ++ rest := by
  induction hlen : text.length using Nat.strong_induction_on generalizing text with
  | h len ih =>
    intro hfind
    obtain ⟨line, hline, rfl | ⟨rest, rfl⟩⟩ := exists_cut lineFeed text
    · obtain ⟨n, hn⟩ := Option.isSome_iff_exists.mp hfind
      have hin := (isPrefix_drop_of_findText hn).sublist.trans (drop_sublist n _)
      have hcount := hin.count_le lineFeed
      have hone : (lineFeed :: text).count lineFeed = 1 := by
        rw [count_cons_self, count_eq_zero.mpr hline]
      rw [hone] at hcount
      exact absurd hcount (by decide)
    · by_cases hempty : line = [carriageReturn]
      · subst hempty
        exact ⟨[], rest, by simp [HeaderLines], rfl⟩
      · have hnot : ¬ [lineFeed, carriageReturn, lineFeed] <+:
            lineFeed :: (line ++ lineFeed :: rest) := by
          rintro ⟨b, hb⟩
          have hpieces : [carriageReturn] ++ lineFeed :: b = line ++ lineFeed :: rest := by
            simpa using hb
          have hfeed : lineFeed ∉ [carriageReturn] := by decide
          exact hempty ((append_cons_inj hfeed hline).mp hpieces).1.symm
        rw [findText_cons, if_neg hnot, findText_skip hline, Option.isSome_map,
          Option.isSome_map] at hfind
        have hlt : rest.length < len := by
          rw [← hlen, length_append, length_cons]
          omega
        obtain ⟨lines, rest', hlines, rfl⟩ := ih rest.length hlt rfl hfind
        refine ⟨line :: lines, rest', forall_mem_cons.mpr ⟨⟨hline, hempty⟩, hlines⟩, ?_⟩
        exact (headerSection_cons line lines rest').symm

theorem headerSection_of_sentinel {text : Octets} {n : Nat}
    (h : findText sentinel text = some n) :
    ∃ lines rest, HeaderLines lines ∧ text = headerSection lines ++ rest := by
  refine exists_headerSection (Option.isSome_iff_ne_none.mpr fun hnone => ?_)
  rw [findText_eq_none_iff (cons_ne_nil _ _)] at hnone
  have hin : [lineFeed, carriageReturn, lineFeed] <:+: sentinel :=
    (suffix_cons _ _).isInfix
  have htext : sentinel <:+: text := ⟨_, _, (findText_split h).symm⟩
  exact hnone ((hin.trans htext).trans (suffix_cons lineFeed text).isInfix)

/-- The headers and the cookies of a section. -/
def sectionHeaders (lines : List Octets) : HeadersMap × Octets := lines.foldl readHeader ({}, [])

/-- The headers map once the section was read. -/
def responseHeaders (lines : List Octets) : HeadersMap :=
  if (sectionHeaders lines).2 = [] then (sectionHeaders lines).1
  else
    emplaceHeader (sectionHeaders lines).1 (toLowerCopy HttpHeader.cookie) (sectionHeaders lines).2

section

variable (options : ResponseOptions) (fromUtf8 : Octets → Option Octets)

/-! ## The content -/

/-- The content of a response whose headers were read. -/
def contentOutcome (s : ResponseState) (content : Octets) : Outcome :=
  if s.contentReceived + content.length ≤ options.maxResponseSize then
    doReadContentEof options fromUtf8
      { s with
        contentReceived := s.contentReceived + content.length
        contentOutStream := s.contentOutStream ++ content }
  else s.outcome (some (.responseTooLarge options.maxResponseSize))

theorem doReadContent_eq (s : ResponseState) (bytes : Octets) :
    doReadContent options s bytes =
      if s.contentReceived + bytes.length ≤ options.maxResponseSize then
        .ok { s with
          contentReceived := s.contentReceived + bytes.length
          contentOutStream := s.contentOutStream ++ bytes }
      else .error (s.outcome (some (.responseTooLarge options.maxResponseSize))) := by
  unfold doReadContent chkResponseSize
  split_ifs with hsize
  · rfl
  · rfl

theorem readContent_nil (s : ResponseState) :
    readContent options fromUtf8 [] s = doReadContentEof options fromUtf8 s := by
  rw [readContent]
  rfl

/-- The reads of the content come to what they add up to. -/
theorem readContent_eq (pieces : List Octets) (s : ResponseState) :
    s.contentReceived ≤ options.maxResponseSize →
      readContent options fromUtf8 pieces s =
        contentOutcome options fromUtf8 s pieces.flatten := by
  fun_induction readContent options fromUtf8 pieces s with
  | case1 pieces s hread =>
    intro hsize
    cases pieces with
    | nil => simp [contentOutcome, hsize]
    | cons piece pieces =>
      rw [readSome] at hread
      split_ifs at hread
  | case2 pieces s bytes pieces' hread outcome h =>
    intro hsize
    rw [doReadContent_eq] at h
    split_ifs at h with hless
    cases h
    rw [contentOutcome, if_neg]
    rw [← readSome_flatten hread, length_append]
    omega
  | case3 pieces s bytes pieces' hread s' h ih =>
    intro hsize
    rw [doReadContent_eq] at h
    split_ifs at h with hless
    cases h
    rw [ih hless, ← readSome_flatten hread]
    simp only [contentOutcome, length_append, append_assoc, Nat.add_assoc]
    rfl

/-- The content which the buffer held already, and the reads after it. -/
theorem chkResponseSize_readContent (s : ResponseState) (content : Octets)
    (pieces : List Octets) :
    (match chkResponseSize options
        { s with
          contentReceived := s.contentReceived + content.length
          contentOutStream := s.contentOutStream ++ content } with
      | .error outcome => outcome
      | .ok s => readContent options fromUtf8 pieces s) =
      contentOutcome options fromUtf8 s (content ++ pieces.flatten) := by
  unfold chkResponseSize
  split_ifs with hsize
  · dsimp only
    rw [readContent_eq options fromUtf8 pieces _ hsize]
    simp only [contentOutcome, length_append, append_assoc, Nat.add_assoc]
    rfl
  · dsimp only [ResponseState.fail]
    rw [contentOutcome, if_neg]
    · rfl
    · rw [length_append]
      dsimp only at hsize
      omega

/-! ## From the headers on -/

/-- The members when the section of some lines was taken from a buffer. -/
theorem doReadHeaders_section {lines : List Octets} (hlines : HeaderLines lines)
    {s : ResponseState} (hheaders : s.responseHeaders = {}) (rest : Octets) :
    doReadHeaders options { s with response := headerSection lines ++ rest } =
      match readResponseLength (sectionHeaders lines).1 with
      | .error failure => { s with responseHeaders := (sectionHeaders lines).1 }.fail failure
      | .ok responseLength =>
        chkResponseSize options
          { s with
            response := []
            responseHeaders := responseHeaders lines
            responseLength := responseLength
            contentReceived := s.contentReceived + rest.length
            contentOutStream := s.contentOutStream ++ rest } := by
  have hloop : readHeaders { rest := headerSection lines ++ rest } ({}, []) =
      (sectionHeaders lines, { rest := rest }) := readHeaders_section rest hlines
  simp only [doReadHeaders, hheaders, hloop]
  cases readResponseLength (sectionHeaders lines).1 with
  | error failure => rfl
  | ok responseLength =>
    by_cases hcookies : (sectionHeaders lines).2 = []
    · cases rest with
      | nil | cons _ _ => simp [responseHeaders, hcookies]
    · cases rest with
      | nil | cons _ _ => simp [responseHeaders, hcookies]

/-- A response which is there at once, from the header section on. -/
def wholeAfterStatus (s : ResponseState) (text : Octets) : Outcome :=
  match findText sentinel (text.take maxResponseHeadersSize) with
  | none => s.outcome (some (.systemError (searchError maxResponseHeadersSize text)))
  | some _ =>
    match doReadHeaders options { s with response := text } with
    | .error outcome => outcome
    | .ok s => doReadContentEof options fromUtf8 s

/-- A response which is there at once. -/
def wholeResponse (text : Octets) : Outcome :=
  let s : ResponseState := {}
  match findText crlf (text.take maxResponseHeadersSize) with
  | none => s.outcome (some (.systemError (searchError maxResponseHeadersSize text)))
  | some _ =>
    match doReadStatus { s with response := text } with
    | .error outcome => outcome
    | .ok s => wholeAfterStatus options fromUtf8 s s.response

theorem readAfterStatus_eq {pieces : List Octets} {s : ResponseState}
    (hsize : s.response.length ≤ maxResponseHeadersSize) (hheaders : s.responseHeaders = {}) :
    readAfterStatus options fromUtf8 pieces s =
      wholeAfterStatus options fromUtf8 s (s.response ++ pieces.flatten) := by
  unfold readAfterStatus wholeAfterStatus
  cases hread : readUntil sentinel maxResponseHeadersSize s.response pieces with
  | error e =>
    obtain ⟨hnone, rfl⟩ := readUntil_error hsize hread
    rw [hnone]
  | ok r =>
    obtain ⟨response, pieces'⟩ := r
    obtain ⟨htotal, hsize', n, hn⟩ := readUntil_ok hsize hread
    rw [findText_take_of_append sentinel_ne_nil htotal hsize' hn]
    obtain ⟨lines, rest, hlines, rfl⟩ := headerSection_of_sentinel hn
    rw [← htotal, append_assoc]
    dsimp only
    rw [doReadHeaders_section options hlines hheaders,
      doReadHeaders_section options hlines hheaders]
    cases readResponseLength (sectionHeaders lines).1 with
    | error failure => rfl
    | ok responseLength =>
      have hparts := chkResponseSize_readContent options fromUtf8
        { s with
          response := []
          responseHeaders := responseHeaders lines
          responseLength := responseLength } rest pieces'
      have hwhole := chkResponseSize_readContent options fromUtf8
        { s with
          response := []
          responseHeaders := responseHeaders lines
          responseLength := responseLength } (rest ++ pieces'.flatten) []
      simp only [readContent_nil, flatten_nil, append_nil] at hwhole
      exact hparts.trans hwhole.symm

/-- A response in pieces comes to what it comes to when it is there at once. -/
theorem readResponse_eq {text : Octets} (hstatus : StatusInFirstLine text) (cut : Cut text) :
    readResponse options fromUtf8 cut.pieces = wholeResponse options fromUtf8 text := by
  obtain ⟨pieces, -, htext⟩ := cut
  unfold readResponse wholeResponse
  dsimp only
  have hsize : ([] : Octets).length ≤ maxResponseHeadersSize := Nat.zero_le _
  cases hread : readUntil crlf maxResponseHeadersSize [] pieces with
  | error e =>
    obtain ⟨hnone, rfl⟩ := readUntil_error hsize hread
    rw [nil_append, htext] at hnone
    rw [hnone, nil_append, htext]
  | ok r =>
    obtain ⟨response, pieces'⟩ := r
    obtain ⟨htotal, hsize', n, hn⟩ := readUntil_ok hsize hread
    rw [nil_append, htext] at htotal
    rw [findText_take_of_append crlf_ne_nil htotal hsize' hn]
    have heof := readStatusLine_buffer hstatus htotal hsize' hn
    have hlong := readStatusLine_append pieces'.flatten heof
    simp only [append, htotal] at hlong
    unfold doReadStatus
    dsimp only
    rw [hlong]
    rcases hcode : readStatusLine { rest := response } with ⟨info | statusCode, rstream⟩
    · rfl
    · obtain ⟨line, hrest, -⟩ := readStatusLine_ok hcode
      have hbuffer : rstream.rest.length ≤ maxResponseHeadersSize := by
        have hle := congrArg List.length hrest
        rw [length_append] at hle
        omega
      exact readAfterStatus_eq options fromUtf8 hbuffer rfl

end

end Baselib.Http.SimpleHttpTask
